import Mathlib.Algebra.Group.Int.Defs
import Mathlib.Algebra.Group.Nat.Defs
import Matchmaking.Problem.Basic
import Matchmaking.Proofs.Constraint.Naming
import Matchmaking.Proofs.Stateful

/-! The text of a program, laid out part by part: the objective, a line for each row, a line for the
bound of each variable and the list of the variables that are whole. A program whose identifiers and
names are texts and whose weights and targets are numbers is written just so, unless a whole number in
it has too many digits; there is no other cause for its writing to fail. -/
namespace Matchmaking

def Numeral.Fits (z : Int) : Prop := (Nat.toDigits 10 z.natAbs).length ≤ digitLimit

theorem Numeral.fits_iff {z : Int} : Numeral.Fits z ↔ z.natAbs < 10 ^ digitLimit :=
  Nat.length_toDigits_le_iff (by decide) (by decide)

theorem Numeral.fits_neg (z : Int) : Numeral.Fits (-z) ↔ Numeral.Fits z := by rw [Fits, Fits, Int.natAbs_neg]

theorem Numeral.fits_of_digit {z : Int} (single : z.natAbs < 10) : Numeral.Fits z :=
  fits_iff.mpr (Nat.lt_of_lt_of_le single (Nat.le_self_pow (by decide) 10))

theorem Numeral.not_fits_pow {k : Nat} (large : digitLimit ≤ k) : ¬Numeral.Fits (10 ^ k) := by
  rw [fits_iff, Int.natAbs_pow]
  exact Nat.not_lt.mpr (Nat.pow_le_pow_right (by decide) large)

theorem Numeral.writeInt?_of_fits {z : Int} (fits : Numeral.Fits z) :
    writeInt? z = some (String.ofList (Identifier.numeral z)) := by
  rw [writeInt?, if_neg (Nat.not_lt.mpr fits)]
  rfl

theorem Numeral.writeInt?_of_not_fits {z : Int} (large : ¬Numeral.Fits z) : writeInt? z = none := by
  rw [writeInt?, if_pos (Nat.not_le.mp large)]

namespace Number

/-- A number as it stands in a program text: a whole double is written without its point and a fraction as a
quotient. -/
def written : Number → String
  | .whole z => String.ofList (Identifier.numeral z)
  | .ratio q =>
    let num := String.ofList (Identifier.numeral q.num)
    if q.den = 1 then num else num ++ "/" ++ String.ofList (Identifier.numeral q.den)
  | .real x => if x.isInteger then String.ofList (Identifier.numeral (x.truncate?.getD 0)) else x.toText

/-- A number that can be written: what is whole has few enough digits. -/
def Fits : Number → Prop
  | .whole z => Numeral.Fits z
  | .ratio q => Numeral.Fits q.num ∧ Numeral.Fits q.den
  | .real x => x.isInteger = true → Numeral.Fits (x.truncate?.getD 0)

def coefficient (n : Number) : String := (if le (.whole 0) n then "+" else "-") ++ n.abs.written

theorem fits_abs (n : Number) : n.abs.Fits ↔ n.Fits := by
  cases n with
  | whole z => rw [abs, Fits, Fits, Numeral.Fits, Numeral.Fits, Int.natAbs_natCast]
  | ratio q =>
    rw [abs, Rat.abs]
    split
    · exact Iff.rfl
    · rw [Fits, Fits, Rat.neg_num, Rat.neg_den, Numeral.fits_neg]
  | real x =>
    cases x with
    | finite negative units =>
      refine imp_congr_right fun _ => ?_
      cases negative with
      | false => rfl
      | true => exact (Numeral.fits_neg _).symm
    | _ => rfl

end Number

theorem Value.ofNumber_inj {m n : Number} : Value.ofNumber m = .ofNumber n ↔ m = n := by
  cases m <;> cases n <;> simp [ofNumber]

theorem Value.ofNumber_eq_int {n : Number} {z : Int} : Value.ofNumber n = .int z ↔ n = .whole z := by
  cases n <;> simp [ofNumber]

theorem Failure.shown_text (s : String) : Failure.shown (.text s) = .ok s := rfl

theorem Failure.shown_int (z : Int) :
    Settles (Failure.shown (.int z)) (Numeral.Fits z) (String.ofList (Identifier.numeral z)) .numeralTooLong := by
  have written : (Value.int z).shown? = Numeral.writeInt? z := rfl
  rw [Failure.shown, written]
  constructor
  · intro fits
    rw [Numeral.writeInt?_of_fits fits]
  · intro large
    rw [Numeral.writeInt?_of_not_fits large]

theorem Failure.shown_ratio (q : Rat) : Settles (Failure.shown (.ratio q)) (Number.ratio q).Fits
    (Number.ratio q).written .numeralTooLong := by
  have shape : (Value.ratio q).shown? = do
      let num ← Numeral.writeInt? q.num
      if q.den = 1 then return num else return num ++ "/" ++ (← Numeral.writeInt? q.den) := rfl
  rw [Failure.shown, shape, Number.Fits, Number.written]
  constructor
  · rintro ⟨num, den⟩
    simp only [Numeral.writeInt?_of_fits num, Numeral.writeInt?_of_fits den, Option.bind_eq_bind, Option.bind_some]
    by_cases whole : q.den = 1
    · simp only [if_pos whole]
      rfl
    · simp only [if_neg whole]
      rfl
  · intro large
    by_cases num : Numeral.Fits q.num
    · have den : ¬Numeral.Fits q.den := fun fits => large ⟨num, fits⟩
      have proper : q.den ≠ 1 := fun one => den (by rw [one]; exact Numeral.fits_of_digit (by decide))
      simp only [Numeral.writeInt?_of_fits num, Numeral.writeInt?_of_not_fits den, Option.bind_eq_bind,
        Option.bind_some, if_neg proper, Option.bind_none]
    · simp only [Numeral.writeInt?_of_not_fits num, Option.bind_eq_bind, Option.bind_none]

theorem amount_settles (n : Number) : Settles (amount (.ofNumber n)) n.Fits n.written .numeralTooLong := by
  cases n with
  | whole z => exact Failure.shown_int z
  | ratio q => exact Failure.shown_ratio q
  | real x =>
    by_cases integer : x.isInteger = true
    · simp only [Value.ofNumber, amount, Number.Fits, Number.written, integer, if_true, true_imp_iff]
      exact Failure.shown_int _
    · simp only [Value.ofNumber, amount, Number.Fits, Number.written, integer, if_false, Bool.false_eq_true,
        false_imp_iff]
      exact ⟨fun _ => rfl, fun not => absurd trivial not⟩

structure Sheet.Row where
  name : String
  ids : List String
  operator : Operator
  target : Number

/-- A program text in its parts. -/
structure Sheet where
  /-- The weights that are written, each with its identifier. -/
  terms : List (Number × String)
  rows : List Sheet.Row
  ids : List String

namespace Sheet

def termText (term : Number × String) : String := term.1.coefficient ++ " " ++ term.2

def Row.label (row : Row) : String := if row.name.isEmpty then "" else row.name ++ ": "

def Row.line (row : Row) : String :=
  row.label ++ String.intercalate " " (row.ids.map ("+" ++ ·)) ++ " " ++ row.operator.symbol ++ " " ++
    row.target.written ++ ";"

def objectiveLine (sheet : Sheet) : String := "min: " ++ String.intercalate " " (sheet.terms.map termText) ++ ";"

def boundLine (id : String) : String := id ++ " <= 1;"

def wholeLines (sheet : Sheet) : List String :=
  if sheet.ids.isEmpty then [] else ["", Problem.wholeLine sheet.ids]

def lines (sheet : Sheet) : List String :=
  ["/* Objective function */", sheet.objectiveLine, "", "/* Constraints */"] ++ sheet.rows.map Row.line ++
    sheet.ids.map boundLine ++ sheet.wholeLines

def text (sheet : Sheet) : String := String.intercalate "\n" sheet.lines ++ "\n"

def Fits (sheet : Sheet) : Prop := (∀ term ∈ sheet.terms, term.1.Fits) ∧ ∀ row ∈ sheet.rows, row.target.Fits

end Sheet

/-- A row of a program and what is written for it. -/
structure Constraint.IsShown (c : Constraint) (row : Sheet.Row) : Prop where
  unknowns : c.unknowns = row.ids.map .text
  operator : c.operator = row.operator
  target : c.target = .ofNumber row.target
  name : c.name = .text row.name

/-- A program and what is written for it; terms of weight zero are not. -/
structure Problem.IsShown (p : Problem) (sheet : Sheet) : Prop where
  unknowns : p.unknowns = .list (sheet.ids.map .text)
  terms : p.terms = sheet.terms.map fun term => (.text term.2, .ofNumber term.1)
  rows : List.Forall₂ Constraint.IsShown p.constraints sheet.rows

theorem Constraint.IsShown.unique {c : Constraint} {row other : Sheet.Row} (shown : c.IsShown row)
    (shown' : c.IsShown other) : row = other := by
  have texts : Function.Injective Value.text := fun _ _ => Value.text.inj
  have name := Value.text.inj (shown.name.symm.trans shown'.name)
  have ids := List.map_injective_iff.mpr texts (shown.unknowns.symm.trans shown'.unknowns)
  have operator := shown.operator.symm.trans shown'.operator
  have target := Value.ofNumber_inj.mp (shown.target.symm.trans shown'.target)
  cases row
  cases other
  congr

/-- A program is laid out in one way. -/
theorem Problem.IsShown.unique {p : Problem} {sheet other : Sheet} (shown : p.IsShown sheet)
    (shown' : p.IsShown other) : sheet = other := by
  have texts : Function.Injective Value.text := fun _ _ => Value.text.inj
  have ids := List.map_injective_iff.mpr texts (Value.list.inj (shown.unknowns.symm.trans shown'.unknowns))
  have pairs : Function.Injective fun term : Number × String => (Value.text term.2, Value.ofNumber term.1) := by
    intro term other same
    obtain ⟨id, weight⟩ := Prod.mk.inj same
    exact Prod.ext (Value.ofNumber_inj.mp weight) (Value.text.inj id)
  have terms := List.map_injective_iff.mpr pairs (shown.terms.symm.trans shown'.terms)
  have single : Relator.RightUnique Constraint.IsShown := fun _ _ _ => Constraint.IsShown.unique
  have rows := List.right_unique_forall₂' single shown.rows shown'.rows
  cases sheet
  cases other
  congr

/-- The line of a row over texts under a text, as far as its target can be written. -/
theorem Constraint.toLine_eq {c : Constraint} {name : String} {ids : List String} (unknowns : c.unknowns = ids.map .text)
    (named : c.name = .text name) : c.toLine = do
      return (if name.isEmpty then "" else name ++ ": ") ++ String.intercalate " " (ids.map ("+" ++ ·)) ++ " " ++
        c.operator.symbol ++ " " ++ (← amount c.target) ++ ";" := by
  have terms : (ids.map Value.text).mapM (fun v => do return "+" ++ (← Failure.shown v)) = .ok (ids.map ("+" ++ ·)) := by
    rw [mapM_eq_ok, List.forall₂_map_left_iff, List.forall₂_map_right_iff]
    exact List.forall₂_same.mpr fun _ _ => rfl
  have labelled : (Value.text name).truth = !name.isEmpty := by
    by_cases empty : name = ""
    · rw [empty]
      rfl
    · have present : name.isEmpty = false := by simpa using empty
      simp [Value.truth, Value.length?, present, empty]
  simp only [toLine, unknowns, terms, named, labelled, ok_bind, Failure.shown_text]
  cases name.isEmpty <;> rfl

theorem Constraint.toLine_settles {c : Constraint} {row : Sheet.Row} (shown : c.IsShown row) :
    Settles c.toLine row.target.Fits row.line .numeralTooLong := by
  rw [toLine_eq shown.unknowns shown.name, shown.target, shown.operator]
  exact (amount_settles row.target).bind_ok rfl

namespace Problem

variable {p : Problem} {sheet : Sheet}

theorem termText_settles (term : Number × String) :
    Settles (termText (.text term.2) (.ofNumber term.1)) term.1.Fits (Sheet.termText term) .numeralTooLong := by
  simp only [termText, Value.number_ofNumber, ok_bind]
  refine ((amount_settles _).bind_ok ?_).congr (Number.fits_abs term.1)
  rfl

theorem rowLines_settles (shown : p.IsShown sheet) : Settles p.rowLines sheet.Fits
    (["/* Objective function */", sheet.objectiveLine, "", "/* Constraints */"] ++ sheet.rows.map Sheet.Row.line)
    .numeralTooLong := by
  have terms : Settles (p.terms.mapM fun term => termText term.1 term.2) (∀ term ∈ sheet.terms, term.1.Fits)
      (sheet.terms.map Sheet.termText) .numeralTooLong := by
    rw [shown.terms]
    refine .mapM ?_
    rw [List.forall₂_map_left_iff]
    exact List.forall₂_same.mpr fun term _ => termText_settles term
  have rows : Settles (p.constraints.mapM Constraint.toLine) (∀ row ∈ sheet.rows, row.target.Fits)
      (sheet.rows.map Sheet.Row.line) .numeralTooLong :=
    .mapM (shown.rows.imp fun _ _ => Constraint.toLine_settles)
  exact terms.bind (rows.bind_ok rfl)

theorem walk_texts {α : Type} (read : Value → Except Failure α) (f : String → α)
    (each : ∀ id, read (.text id) = .ok (f id)) (ids : List String) :
    Streams.walk read (.list (ids.map .text)) = liftM (Except.ok (ids.map f) : Except Failure (List α)) := by
  have found : (ids.map Value.text).mapM read = .ok (ids.map f) := by
    rw [mapM_eq_ok, List.forall₂_map_left_iff, List.forall₂_map_right_iff]
    exact List.forall₂_same.mpr fun id _ => each id
  rw [← found]
  rfl

open Stateful

/-- The text of a program is the one that is laid out, whatever has been read before, unless a number
does not fit. -/
theorem toText_shown (shown : p.IsShown sheet) :
    (sheet.Fits → Answers p.toText sheet.text) ∧ (¬sheet.Fits → Fails p.toText .numeralTooLong) := by
  obtain ⟨written, unwritten⟩ := rowLines_settles shown
  constructor
  · intro fits
    have bounds := walk_texts boundLine Sheet.boundLine (fun _ => rfl) sheet.ids
    have whole := walk_texts (fun id => Value.orWrongKind id.text?) (·) (fun _ => rfl) sheet.ids
    rw [List.map_id'] at whole
    have lines : Answers p.textLines sheet.lines := by
      unfold textLines Sheet.lines Sheet.wholeLines
      rw [shown.unknowns, bounds, whole, written fits]
      cases sheet.ids with
      | nil =>
        refine .bind (.lift rfl) (.bind (.lift rfl) ?_)
        simpa [Value.truth, Value.length?] using Answers.pure _
      | cons id rest =>
        exact .bind (.lift rfl) (.bind (.lift rfl) (.bind (.lift rfl) (.pure _)))
    exact lines.bind (.pure _)
  · intro large
    refine Fails.bind (Fails.bind ?_)
    rw [unwritten large]
    exact .lift rfl

end Problem

end Matchmaking
