import Matchmaking.Number.Literal
import Matchmaking.Proofs.Constraint.Handing
import Matchmaking.Proofs.Problem.Sheet
import Matchmaking.Proofs.Space.Identifier

/-! Reading a program text back. Lines end at line feeds, words at blanks and the identifiers of a list
at commas; none of these stands in an identifier, in a name or in a numeral, so a text is taken apart at
just the places where it was put together. A row is told by the colon behind its name. -/
namespace Matchmaking

namespace Identifier

theorem joinPieces_eq (separator : Char) (parts : List (List Char)) :
    joinPieces separator parts = [separator].intercalate parts := by
  induction parts with
  | nil => rfl
  | cons piece rest ih =>
    cases rest with
    | nil => simp [joinPieces, List.intercalate]
    | cons next others =>
      rw [joinPieces_cons (by simp), ih]
      simp [List.intercalate, List.intersperse]

theorem toList_joined (separator : Char) (parts : List String) :
    ((String.singleton separator).intercalate parts).toList = joinPieces separator (parts.map String.toList) := by
  rw [String.toList_intercalate, String.toList_singleton, joinPieces_eq]

theorem joinPieces_append {separator : Char} {first second : List (List Char)} (some : first ≠ [])
    (some' : second ≠ []) : joinPieces separator (first ++ second) =
      joinPieces separator first ++ separator :: joinPieces separator second := by
  induction first with
  | nil => exact absurd rfl some
  | cons piece rest ih =>
    cases rest with
    | nil => rw [List.singleton_append, joinPieces_cons some']; rfl
    | cons next others =>
      have longer : next :: others ++ second ≠ [] := by simp
      rw [List.cons_append, joinPieces_cons longer, ih (List.cons_ne_nil _ _),
        joinPieces_cons (List.cons_ne_nil next others), List.append_assoc, List.cons_append]

theorem mem_joinPieces {separator c : Char} {parts : List (List Char)} (member : c ∈ joinPieces separator parts) :
    c = separator ∨ ∃ piece ∈ parts, c ∈ piece := by
  induction parts with
  | nil => cases member
  | cons piece rest ih =>
    cases rest with
    | nil => exact .inr ⟨piece, List.mem_cons_self, member⟩
    | cons next last =>
      rw [joinPieces_cons (by simp), List.mem_append, List.mem_cons] at member
      rcases member with here | equal | later
      · exact .inr ⟨piece, List.mem_cons_self, here⟩
      · exact .inl equal
      · obtain equal | ⟨other, listed, inside⟩ := ih later
        · exact .inl equal
        · exact .inr ⟨other, List.mem_cons_of_mem _ listed, inside⟩

theorem not_mem_joinPieces {mark separator : Char} (differ : mark ≠ separator) {parts : List (List Char)}
    (free : ∀ piece ∈ parts, mark ∉ piece) : mark ∉ joinPieces separator parts := by
  intro member
  obtain equal | ⟨piece, listed, inside⟩ := mem_joinPieces member
  · exact differ equal
  · exact free piece listed inside

theorem isWord_write {row : List Int} (nonneg : ∀ p ∈ row, 0 ≤ p) : Name.isWord (write row).toList = true := by
  rw [write, String.toList_ofList, Name.isWord, show Name.isLetter 'v' = true from rfl, Bool.true_and, List.all_eq_true]
  intro c member
  obtain rfl | ⟨piece, listed, inside⟩ := mem_joinPieces member
  · rfl
  · obtain ⟨p, known, rfl⟩ := List.mem_map.mp listed
    have digit := isDigit_of_mem_numeral (nonneg p known) inside
    simp only [Char.isDigit, Bool.and_eq_true, decide_eq_true_eq] at digit
    simp only [Bool.or_eq_true, Bool.and_eq_true, decide_eq_true_eq]
    exact .inr digit

theorem joinPieces_flatMap {α : Type} {separator : Char} {parts : α → List (List Char)} {xs : List α}
    (some : ∀ x ∈ xs, parts x ≠ []) :
    joinPieces separator (xs.map fun x => joinPieces separator (parts x)) = joinPieces separator (xs.flatMap parts) := by
  induction xs with
  | nil => rfl
  | cons x rest ih =>
    obtain ⟨first, others⟩ := List.forall_mem_cons.mp some
    cases rest with
    | nil => simp [joinPieces]
    | cons next last =>
      have behind : (next :: last).flatMap parts ≠ [] := by
        rw [List.flatMap_cons]
        exact fun none => others next List.mem_cons_self (List.append_eq_nil_iff.mp none).1
      rw [List.map_cons, joinPieces_cons (by simp), ih others, List.flatMap_cons (x := x), joinPieces_append first behind]

end Identifier

namespace Sheet

open Identifier

def readWhole (word : List Char) : Int :=
  let (negative, digits) := Numeral.splitSign word
  let value : Int := Nat.ofDigitChars 10 digits 0
  if negative then -value else value

def readOperator? (word : List Char) : Option Operator :=
  [Operator.eq, .le, .ge].find? fun op => op.symbol.toList == word

def words (line : List Char) : List (List Char) := pieces ' ' line.dropLast

def pairUp : List (List Char) → List (Number × String)
  | weight :: id :: rest => (.whole (readWhole weight), String.ofList id) :: pairUp rest
  | _ => []

def readTerms (line : List Char) : List (Number × String) := pairUp ((words line).drop 1)

/-- A row, the first word of which is its name with a colon. -/
def readRow? (line : List Char) : Option Row :=
  match words line with
  | [] => none
  | label :: rest =>
    match label.getLast?, rest.reverse with
    | some ':', target :: symbol :: ids => do
      let operator ← readOperator? symbol
      return ⟨String.ofList label.dropLast, ids.reverse.map fun id => String.ofList (id.drop 1), operator,
        .whole (readWhole target)⟩
    | _, _ => none

def readBound? (line : List Char) : Option String :=
  match words line with
  | [id, ['<', '='], ['1']] => if id.getLast? = some ':' then none else some (String.ofList id)
  | _ => none

def read? (text : String) : Option Sheet :=
  match pieces '\n' text.toList with
  | _ :: objective :: _ :: _ :: rest =>
    some ⟨readTerms objective, rest.filterMap readRow?, rest.filterMap readBound?⟩
  | _ => none

/-- The identifiers on the last line of a text. -/
def listed (text : String) : List String :=
  match (pieces '\n' text.toList).reverse with
  | _ :: line :: _ => (pieces ',' (line.drop 4).dropLast).map String.ofList
  | _ => []

def occurrences (line text : String) : Nat := (pieces '\n' text.toList).count line.toList

def isMark (c : Char) : Bool := c ∈ ['\n', ' ', ',', ':', ';']

/-- A part of a text without separators. -/
def IsToken (s : List Char) : Prop := ∀ c ∈ s, isMark c = false

theorem IsToken.not_mem {s : List Char} (token : IsToken s) {mark : Char} (marks : isMark mark = true) : mark ∉ s := by
  intro member
  rw [token mark member] at marks
  cases marks

theorem IsToken.cons {c : Char} {s : List Char} (first : isMark c = false) (token : IsToken s) : IsToken (c :: s) :=
  List.forall_mem_cons.mpr ⟨first, token⟩

theorem isMark_of_isDigit {c : Char} (digit : c.isDigit = true) : isMark c = false := by
  have range := Text.range_of_isDigit digit
  refine Bool.eq_false_iff.mpr fun mark => ?_
  simp only [isMark, List.mem_cons, List.not_mem_nil, or_false, decide_eq_true_eq] at mark
  rcases mark with rfl | rfl | rfl | rfl | rfl <;> revert range <;> decide

theorem isToken_numeral (z : Int) : IsToken (numeral z) := by
  have digits : IsToken (Nat.toDigits 10 z.natAbs) := fun c member =>
    isMark_of_isDigit (Nat.isDigit_of_mem_toDigits (by omega) (by omega) member)
  unfold numeral
  split
  · exact .cons (by decide) digits
  · exact digits

theorem isToken_of_isWord {s : List Char} (word : Name.isWord s = true) : IsToken s := by
  have each : ∀ c, isMark c = true → (Name.isLetter c || ('0' ≤ c && c ≤ '9')) = false := by
    intro c mark
    simp only [isMark, List.mem_cons, List.not_mem_nil, or_false, decide_eq_true_eq] at mark
    rcases mark with rfl | rfl | rfl | rfl | rfl <;> decide
  cases s with
  | nil => cases word
  | cons c rest =>
    rw [Name.isWord, Bool.and_eq_true, List.all_eq_true] at word
    refine List.forall_mem_cons.mpr ⟨?_, fun d member => ?_⟩
    · refine Bool.eq_false_iff.mpr fun mark => ?_
      have other := each c mark
      rw [word.1] at other
      cases other
    · refine Bool.eq_false_iff.mpr fun mark => ?_
      have other := each d mark
      rw [word.2 d member] at other
      cases other

theorem readWhole_digits (n : Nat) : readWhole (Nat.toDigits 10 n) = n := by
  have unsigned : Numeral.splitSign (Nat.toDigits 10 n) = (false, Nat.toDigits 10 n) := by
    unfold Numeral.splitSign
    split
    · rename_i rest equal
      have digit := Nat.isDigit_of_mem_toDigits (c := '-') (n := n) (b := 10) (by omega) (by omega) (by simp [equal])
      cases digit
    · rename_i rest equal
      have digit := Nat.isDigit_of_mem_toDigits (c := '+') (n := n) (b := 10) (by omega) (by omega) (by simp [equal])
      cases digit
    · rfl
  simp [readWhole, unsigned]

theorem readWhole_minus (n : Nat) : readWhole ('-' :: Nat.toDigits 10 n) = -n := by
  simp [readWhole, Numeral.splitSign]

theorem readWhole_plus (n : Nat) : readWhole ('+' :: Nat.toDigits 10 n) = n := by
  simp [readWhole, Numeral.splitSign]

theorem readWhole_numeral (z : Int) : readWhole (numeral z) = z := by
  unfold numeral
  dsimp only
  split
  · rw [readWhole_minus]
    omega
  · rw [readWhole_digits]
    omega

theorem coefficient_whole (z : Int) : (Number.whole z).coefficient.toList =
    (if 0 ≤ z then '+' else '-') :: Nat.toDigits 10 z.natAbs := by
  have written : (Number.whole z).abs.written = String.ofList (Nat.toDigits 10 z.natAbs) := by
    rw [Number.abs, Number.written, numeral_of_nonneg (Int.natCast_nonneg _), Int.natAbs_natCast]
  rw [Number.coefficient, written, Number.le_whole, String.toList_append, String.toList_ofList]
  by_cases nonneg : 0 ≤ z
  · simp [nonneg]
  · simp [nonneg]

theorem readWhole_coefficient (z : Int) : readWhole (Number.whole z).coefficient.toList = z := by
  rw [coefficient_whole]
  split
  · rw [readWhole_plus]
    omega
  · rw [readWhole_minus]
    omega

theorem isToken_coefficient (z : Int) : IsToken (Number.whole z).coefficient.toList := by
  rw [coefficient_whole]
  refine .cons ?_ fun c member => isMark_of_isDigit (Nat.isDigit_of_mem_toDigits (by omega) (by omega) member)
  split <;> decide

theorem readOperator?_symbol (op : Operator) : readOperator? op.symbol.toList = some op := by cases op <;> decide

theorem isToken_symbol (op : Operator) : IsToken op.symbol.toList := by
  have empty : IsToken [] := fun _ member => by cases member
  cases op with
  | eq => exact .cons rfl empty
  | le | ge => exact .cons rfl (.cons rfl empty)

def IsSolid (word : List Char) : Prop := ' ' ∉ word ∧ '\n' ∉ word

theorem IsToken.isSolid {s : List Char} (token : IsToken s) : IsSolid s :=
  ⟨token.not_mem (by decide), token.not_mem (by decide)⟩

theorem IsSolid.append {first second : List Char} (solid : IsSolid first) (solid' : IsSolid second) :
    IsSolid (first ++ second) := by
  constructor
  · exact fun member => (List.mem_append.mp member).elim solid.1 solid'.1
  · exact fun member => (List.mem_append.mp member).elim solid.2 solid'.2

/-- Words with blanks in between and a semicolon at the end. -/
def lineOf (ws : List (List Char)) : List Char := joinPieces ' ' ws ++ [';']

theorem words_lineOf {ws : List (List Char)} (some : ws ≠ []) (solid : ∀ word ∈ ws, IsSolid word) :
    words (lineOf ws) = ws := by
  rw [words, lineOf, List.dropLast_concat, pieces_joinPieces some fun word member => (solid word member).1]

theorem single_lineOf {ws : List (List Char)} (solid : ∀ word ∈ ws, IsSolid word) : '\n' ∉ lineOf ws := by
  rw [lineOf, List.mem_append, List.mem_singleton]
  rintro (early | last)
  · exact not_mem_joinPieces (by decide) (fun word member => (solid word member).2) early
  · cases last

def Row.words (row : Row) : List (List Char) :=
  (row.name.toList ++ [':']) ::
    (row.ids.map (fun id => '+' :: id.toList) ++ [row.operator.symbol.toList, row.target.written.toList])

theorem Row.toList_line {row : Row} (named : row.name ≠ "") (some : row.ids ≠ []) :
    row.line.toList = lineOf row.words := by
  have label : row.label = row.name ++ ": " := by
    rw [Row.label, if_neg (mt String.isEmpty_iff.mp named)]
  have terms : (String.intercalate " " (row.ids.map ("+" ++ ·))).toList =
      joinPieces ' ' (row.ids.map fun id => '+' :: id.toList) := by
    rw [show " " = String.singleton ' ' from rfl, toList_joined, List.map_map]
    refine congrArg _ (List.map_congr_left fun id _ => ?_)
    simp
  have mapped : (row.ids.map fun id => '+' :: id.toList) ≠ [] := by simpa using some
  rw [Row.words, lineOf, joinPieces_cons (by simp), joinPieces_append mapped (by simp), Row.line, label]
  simp only [String.toList_append, terms, joinPieces]
  simp

theorem readRow?_line {row : Row} (usable : Name.isUsable row.name = true) (some : row.ids ≠ [])
    (ids : ∀ id ∈ row.ids, IsToken id.toList) (whole : ∃ t, row.target = .whole t) :
    readRow? row.line.toList = .some row ∧ readBound? row.line.toList = none ∧ '\n' ∉ row.line.toList := by
  obtain ⟨t, target⟩ := whole
  have word : IsToken row.name.toList := by
    simp only [Name.isUsable, Bool.and_eq_true] at usable
    exact isToken_of_isWord usable.1.1
  have solid : ∀ word ∈ row.words, IsSolid word := by
    have written : row.target.written.toList = numeral t := by rw [target, Number.written, String.toList_ofList]
    simp only [Row.words, List.mem_cons, List.mem_append, List.mem_map, List.not_mem_nil, or_false, written]
    rintro word (rfl | ⟨id, member, rfl⟩ | rfl | rfl)
    · exact word.isSolid.append ⟨by decide, by decide⟩
    · exact (IsToken.cons (by decide) (ids id member)).isSolid
    · exact (isToken_symbol _).isSolid
    · exact (isToken_numeral t).isSolid
  have ws : Sheet.words (lineOf row.words) = row.words := words_lineOf (List.cons_ne_nil _ _) solid
  rw [Row.toList_line (Name.ne_empty_of_isUsable usable) some]
  refine ⟨?_, ?_, single_lineOf solid⟩
  · have operands : (row.ids.map (fun id => '+' :: id.toList) ++
        [row.operator.symbol.toList, row.target.written.toList]).reverse =
        row.target.written.toList :: row.operator.symbol.toList :: (row.ids.map fun id => '+' :: id.toList).reverse := by
      simp
    have names : (row.ids.map fun id => '+' :: id.toList).map (fun id => String.ofList (id.drop 1)) = row.ids := by
      rw [List.map_map]
      exact (List.map_congr_left fun id _ => by simp).trans (List.map_id _)
    have value : Number.whole (readWhole row.target.written.toList) = row.target := by
      rw [target, Number.written, String.toList_ofList, readWhole_numeral]
    rw [readRow?, ws, Row.words]
    simp only [List.getLast?_concat, operands, readOperator?_symbol, List.dropLast_concat, String.ofList_toList,
      List.reverse_reverse, names, value]
    rfl
  · obtain ⟨id, rest, ids⟩ := List.exists_cons_of_ne_nil some
    have long : 4 ≤ row.words.length := by simp [Row.words, ids]
    unfold readBound?
    split
    · rename_i found
      rw [ws] at found
      rw [found] at long
      simp at long
    · rfl

theorem toList_boundLine (id : String) : (boundLine id).toList = lineOf [id.toList, ['<', '='], ['1']] := by
  simp [boundLine, lineOf, joinPieces]

theorem readBound?_line {id : String} (token : IsToken id.toList) :
    readRow? (boundLine id).toList = none ∧ readBound? (boundLine id).toList = some id ∧
      '\n' ∉ (boundLine id).toList := by
  have solid : ∀ word ∈ [id.toList, ['<', '='], ['1']], IsSolid word := by
    simp only [List.mem_cons, List.not_mem_nil, or_false]
    rintro word (rfl | rfl | rfl)
    · exact token.isSolid
    · exact ⟨by decide, by decide⟩
    · exact ⟨by decide, by decide⟩
  have ws := words_lineOf (List.cons_ne_nil _ _) solid
  have plain : id.toList.getLast? ≠ some ':' := fun last =>
    token.not_mem (by decide) (List.mem_of_getLast? last)
  rw [toList_boundLine]
  refine ⟨?_, ?_, single_lineOf solid⟩
  · simp only [readRow?, ws]
    split
    · rename_i last _
      exact absurd last plain
    · rfl
  · simp [readBound?, ws, plain]

/-- The words on the line of the objective; without terms there is an empty one. -/
def objectiveWords (sheet : Sheet) : List (List Char) :=
  "min:".toList ::
    if sheet.terms = [] then [[]] else sheet.terms.flatMap fun term => [term.1.coefficient.toList, term.2.toList]

theorem toList_objectiveLine (sheet : Sheet) : sheet.objectiveLine.toList = lineOf sheet.objectiveWords := by
  have terms : (String.intercalate " " (sheet.terms.map termText)).toList =
      joinPieces ' ' (sheet.terms.flatMap fun term => [term.1.coefficient.toList, term.2.toList]) := by
    rw [show " " = String.singleton ' ' from rfl, toList_joined, List.map_map,
      ← joinPieces_flatMap fun _ _ => List.cons_ne_nil _ _]
    refine congrArg _ (List.map_congr_left fun term _ => ?_)
    simp [termText, joinPieces]
  have behind : (if sheet.terms = [] then [[]] else
      sheet.terms.flatMap fun term => [term.1.coefficient.toList, term.2.toList]) ≠ [] := by
    split
    · simp
    · rename_i some
      obtain ⟨term, rest, terms⟩ := List.exists_cons_of_ne_nil some
      simp [terms]
  rw [objectiveLine, String.toList_append, String.toList_append, terms, objectiveWords, lineOf,
    joinPieces_cons behind]
  by_cases none : sheet.terms = []
  · simp [none, joinPieces]
  · simp [none]

theorem pairUp_terms {terms : List (Number × String)} (whole : ∀ term ∈ terms, ∃ z, term.1 = .whole z) :
    pairUp (terms.flatMap fun term => [term.1.coefficient.toList, term.2.toList]) = terms := by
  induction terms with
  | nil => rfl
  | cons term rest ih =>
    obtain ⟨⟨z, first⟩, others⟩ := List.forall_mem_cons.mp whole
    have value : Number.whole (readWhole term.1.coefficient.toList) = term.1 := by rw [first, readWhole_coefficient]
    rw [List.flatMap_cons, List.cons_append, List.cons_append, List.nil_append, pairUp, value, ih others,
      String.ofList_toList]

theorem readTerms_line {sheet : Sheet} (tokens : ∀ term ∈ sheet.terms, IsToken term.2.toList)
    (whole : ∀ term ∈ sheet.terms, ∃ z, term.1 = .whole z) :
    readTerms sheet.objectiveLine.toList = sheet.terms ∧ readBound? sheet.objectiveLine.toList = none ∧
      '\n' ∉ sheet.objectiveLine.toList := by
  have solid : ∀ word ∈ sheet.objectiveWords, IsSolid word := by
    refine List.forall_mem_cons.mpr ⟨⟨by decide, by decide⟩, fun word member => ?_⟩
    split at member
    · rw [List.mem_singleton.mp member]
      exact ⟨by simp, by simp⟩
    · obtain ⟨term, listed, here⟩ := List.mem_flatMap.mp member
      obtain ⟨z, value⟩ := whole term listed
      rcases List.mem_pair.mp here with rfl | rfl
      · rw [value]
        exact (isToken_coefficient z).isSolid
      · exact (tokens term listed).isSolid
  have ws : words (lineOf sheet.objectiveWords) = sheet.objectiveWords := words_lineOf (List.cons_ne_nil _ _) solid
  rw [toList_objectiveLine]
  refine ⟨?_, ?_, single_lineOf solid⟩
  · rw [readTerms, ws, objectiveWords, List.drop_one, List.tail_cons]
    split
    · rename_i none
      rw [none]
      rfl
    · exact pairUp_terms whole
  · unfold readBound?
    split
    · rename_i first found
      rw [ws, objectiveWords] at found
      rw [← (List.cons.inj found).1, if_pos (by decide)]
    · rfl

def body (sheet : Sheet) : List (List Char) :=
  sheet.rows.map (fun row => row.line.toList) ++ sheet.ids.map (fun id => (boundLine id).toList) ++
    sheet.wholeLines.map String.toList ++ [[]]

theorem filterMap_some {α β : Type} {write : α → β} {read : β → Option α} {xs : List α}
    (each : ∀ x ∈ xs, read (write x) = some x) : (xs.map write).filterMap read = xs := by
  rw [List.filterMap_map]
  exact (List.filterMap_congr each).trans List.filterMap_some

theorem filterMap_none {α β γ : Type} {write : α → β} {read : β → Option γ} {xs : List α}
    (each : ∀ x ∈ xs, read (write x) = none) : (xs.map write).filterMap read = [] := by
  rw [List.filterMap_map, List.filterMap_eq_nil_iff]
  exact each

/-- The parts of a text that is made by the rules: weights and targets are whole, no weight is zero, and all
identifiers are declared. Names of rows are words that are neither identifiers nor keywords. -/
structure IsGrammatical (sheet : Sheet) : Prop where
  ids : ∀ id ∈ sheet.ids, Identifier.hasForm id = true ∧ Name.isWord id.toList = true
  distinct : sheet.ids.Nodup
  terms : ∀ term ∈ sheet.terms, term.2 ∈ sheet.ids ∧ ∃ z, z ≠ 0 ∧ term.1 = .whole z
  rows : ∀ row ∈ sheet.rows, Name.isUsable row.name = true ∧ row.ids ≠ [] ∧ row.ids ⊆ sheet.ids ∧
    ∃ t, row.target = .whole t

namespace IsGrammatical

variable {sheet : Sheet}

theorem token_of_mem (grammatical : sheet.IsGrammatical) {id : String} (member : id ∈ sheet.ids) : IsToken id.toList :=
  isToken_of_isWord (grammatical.ids id member).2

theorem objective (grammatical : sheet.IsGrammatical) : readTerms sheet.objectiveLine.toList = sheet.terms ∧
    readBound? sheet.objectiveLine.toList = none ∧ '\n' ∉ sheet.objectiveLine.toList := by
  refine readTerms_line (fun term member => grammatical.token_of_mem (grammatical.terms term member).1) ?_
  intro term member
  obtain ⟨-, z, -, whole⟩ := grammatical.terms term member
  exact ⟨z, whole⟩

theorem row (grammatical : sheet.IsGrammatical) {row : Row} (member : row ∈ sheet.rows) :
    readRow? row.line.toList = some row ∧ readBound? row.line.toList = none ∧ '\n' ∉ row.line.toList := by
  obtain ⟨usable, some, inside, whole⟩ := grammatical.rows row member
  exact readRow?_line usable some (fun id listed => grammatical.token_of_mem (inside listed)) whole

theorem whole (grammatical : sheet.IsGrammatical) :
    (Problem.wholeLine sheet.ids).toList = "int ".toList ++ joinPieces ',' (sheet.ids.map String.toList) ++ [';'] ∧
      '\n' ∉ (Problem.wholeLine sheet.ids).toList ∧ readRow? (Problem.wholeLine sheet.ids).toList = none ∧
      readBound? (Problem.wholeLine sheet.ids).toList = none := by
  have line : (Problem.wholeLine sheet.ids).toList =
      lineOf ["int".toList, joinPieces ',' (sheet.ids.map String.toList)] := by
    rw [Problem.wholeLine, show "," = String.singleton ',' from rfl, String.toList_append, String.toList_append,
      toList_joined]
    rfl
  have solid : ∀ word ∈ ["int".toList, joinPieces ',' (sheet.ids.map String.toList)], IsSolid word := by
    have free {mark : Char} (marks : isMark mark = true) : ∀ piece ∈ sheet.ids.map String.toList, mark ∉ piece := by
      intro piece member
      obtain ⟨id, listed, rfl⟩ := List.mem_map.mp member
      exact (grammatical.token_of_mem listed).not_mem marks
    intro word member
    rcases List.mem_pair.mp member with rfl | rfl
    · exact ⟨by decide, by decide⟩
    · exact ⟨not_mem_joinPieces (by decide) (free (by decide)), not_mem_joinPieces (by decide) (free (by decide))⟩
  have ws := words_lineOf (List.cons_ne_nil _ _) solid
  rw [line]
  refine ⟨rfl, single_lineOf solid, ?_, ?_⟩
  · simp only [readRow?, ws]
    rfl
  · unfold readBound?
    split
    · rename_i found
      cases congrArg List.length (ws.symm.trans found)
    · rfl

theorem pieces_text (grammatical : sheet.IsGrammatical) :
    pieces '\n' sheet.text.toList = sheet.lines.map String.toList ++ [[]] := by
  have joined : sheet.text.toList = joinPieces '\n' (sheet.lines.map String.toList ++ [[]]) := by
    rw [joinPieces_append (by simp [lines]) (List.cons_ne_nil _ _), text, String.toList_append,
      show "\n" = String.singleton '\n' from rfl, toList_joined]
    rfl
  have single : ∀ line ∈ sheet.lines, '\n' ∉ line.toList := by
    intro line member
    simp only [lines, List.mem_append, List.mem_cons, List.not_mem_nil, or_false, List.mem_map] at member
    rcases member with (((rfl | rfl | rfl | rfl) | ⟨row, listed, rfl⟩) | ⟨id, listed, rfl⟩) | last
    · decide
    · exact grammatical.objective.2.2
    · decide
    · decide
    · exact (grammatical.row listed).2.2
    · exact (readBound?_line (grammatical.token_of_mem listed)).2.2
    · rw [wholeLines] at last
      split at last
      · cases last
      · rcases List.mem_pair.mp last with rfl | rfl
        · decide
        · exact grammatical.whole.2.1
  rw [joined]
  refine pieces_joinPieces (by simp) fun piece member => ?_
  rcases List.mem_append.mp member with early | last
  · obtain ⟨line, listed, rfl⟩ := List.mem_map.mp early
    exact single line listed
  · rw [List.mem_singleton.mp last]
    simp

theorem tail (grammatical : sheet.IsGrammatical) :
    (sheet.wholeLines.map String.toList).filterMap readRow? = [] ∧
      (sheet.wholeLines.map String.toList).filterMap readBound? = [] := by
  have empty : readRow? [] = none ∧ readBound? [] = none := by decide
  obtain ⟨-, -, row, bound⟩ := grammatical.whole
  unfold wholeLines
  split
  · exact ⟨rfl, rfl⟩
  · simp [empty, row, bound]

theorem pieces_body (grammatical : sheet.IsGrammatical) : pieces '\n' sheet.text.toList =
    "/* Objective function */".toList :: sheet.objectiveLine.toList :: [] :: "/* Constraints */".toList :: sheet.body := by
  rw [grammatical.pieces_text]
  simp [lines, body, Function.comp_def]

theorem rows_body (grammatical : sheet.IsGrammatical) : sheet.body.filterMap readRow? = sheet.rows := by
  have rows : (sheet.rows.map fun row => row.line.toList).filterMap readRow? = sheet.rows :=
    filterMap_some fun row member => (grammatical.row member).1
  have others : (sheet.ids.map fun id => (boundLine id).toList).filterMap readRow? = [] :=
    filterMap_none fun id member => (readBound?_line (grammatical.token_of_mem member)).1
  have last : [[]].filterMap readRow? = [] := by decide
  simp only [body, List.filterMap_append, rows, others, grammatical.tail.1, last, List.append_nil]

theorem bounds_body (grammatical : sheet.IsGrammatical) : sheet.body.filterMap readBound? = sheet.ids := by
  have bounds : (sheet.ids.map fun id => (boundLine id).toList).filterMap readBound? = sheet.ids :=
    filterMap_some fun id member => (readBound?_line (grammatical.token_of_mem member)).2.1
  have others : (sheet.rows.map fun row => row.line.toList).filterMap readBound? = [] :=
    filterMap_none fun row member => (grammatical.row member).2.1
  have last : [[]].filterMap readBound? = [] := by decide
  simp only [body, List.filterMap_append, bounds, others, grammatical.tail.2, last, List.append_nil, List.nil_append]

/-- What a text is made of can be read off it. -/
theorem read?_text (grammatical : sheet.IsGrammatical) : read? sheet.text = some sheet := by
  rw [read?, grammatical.pieces_body]
  simp only [grammatical.objective.1, grammatical.rows_body, grammatical.bounds_body]

/-- Each variable has one bound in a text. -/
theorem occurrences_boundLine (grammatical : sheet.IsGrammatical) {id : String} (member : id ∈ sheet.ids) :
    occurrences (boundLine id) sheet.text = 1 := by
  have reads : (pieces '\n' sheet.text.toList).filterMap readBound? = sheet.ids := by
    have headings : readBound? "/* Objective function */".toList = none ∧ readBound? [] = none ∧
        readBound? "/* Constraints */".toList = none := by decide
    simp only [grammatical.pieces_body, List.filterMap_cons, headings, grammatical.objective.2.1,
      grammatical.bounds_body]
  refine Nat.le_antisymm ?_ ?_
  · calc occurrences (boundLine id) sheet.text
        ≤ (pieces '\n' sheet.text.toList).countP (fun line => readBound? line == some id) := by
          refine List.countP_mono_left fun line _ same => ?_
          rw [beq_iff_eq.mp same, (readBound?_line (grammatical.token_of_mem member)).2.1, beq_self_eq_true]
      _ = sheet.ids.count id := by rw [← List.count_filterMap, reads]
      _ = 1 := List.count_eq_one_of_mem grammatical.distinct member
  · refine List.count_pos_iff.mpr ?_
    rw [grammatical.pieces_body, body]
    simp only [List.mem_cons, List.mem_append, List.mem_map]
    exact .inr (.inr (.inr (.inr (.inl (.inl (.inr ⟨id, member, rfl⟩))))))

theorem listed_text (grammatical : sheet.IsGrammatical) (some : sheet.ids ≠ []) : listed sheet.text = sheet.ids := by
  have lines : ∃ front, pieces '\n' sheet.text.toList = front ++ [(Problem.wholeLine sheet.ids).toList, []] := by
    rw [grammatical.pieces_body, body, wholeLines, if_neg (by simpa using some)]
    exact ⟨"/* Objective function */".toList :: sheet.objectiveLine.toList :: [] :: "/* Constraints */".toList ::
      (sheet.rows.map (fun row => row.line.toList) ++ sheet.ids.map (fun id => (boundLine id).toList) ++ [[]]), by simp⟩
  obtain ⟨front, split⟩ := lines
  have tokens : ∀ piece ∈ sheet.ids.map String.toList, ',' ∉ piece := by
    intro piece member
    obtain ⟨id, inside, rfl⟩ := List.mem_map.mp member
    exact (grammatical.token_of_mem inside).not_mem (by decide)
  have items : (((Problem.wholeLine sheet.ids).toList.drop 4).dropLast) = joinPieces ',' (sheet.ids.map String.toList) := by
    rw [grammatical.whole.1]
    exact List.dropLast_concat
  rw [listed, split, List.reverse_append]
  simp only [List.reverse_cons, List.reverse_nil, List.nil_append, List.cons_append, items]
  rw [pieces_joinPieces (by simpa using some) tokens, List.map_map]
  exact (List.map_congr_left fun id _ => String.ofList_toList).trans (List.map_id _)

end IsGrammatical

end Sheet

end Matchmaking
