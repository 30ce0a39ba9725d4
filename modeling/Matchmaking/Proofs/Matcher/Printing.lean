import Matchmaking.Proofs.Matcher.Closure
import Matchmaking.Proofs.Matcher.Sharing
import Matchmaking.Proofs.Matcher.Totals
import Matchmaking.Proofs.Number.Decimals

/-! Numbers in the texts of composed programs. Weights are looked at when they are offered, and those that are
taken are numbers; what a row or a count asks for is taken as it is. As long as that is a number, there is
a program unless weights of one tuple cannot be added up, there is a text of it unless a whole number in it has
too many digits, and just the whole numbers, the fractions that are whole and the finite doubles stand in the text as
decimals. -/
namespace Matchmaking

open Stateful

namespace Number

open Numeral

def isDecimal : Number → Bool
  | .whole _ => true
  | .ratio q => q.den == 1
  | .real x => x.isFinite

theorem isLiteral_numeral (z : Int) : IsLiteral (String.ofList (Identifier.numeral z)) := by
  have digits : IsDecimal (Nat.toDigits 10 z.natAbs) := .plain (.whole (isDigits_toDigits _))
  unfold Identifier.numeral
  split
  · exact isLiteral_minus.mpr digits
  · exact digits.isLiteral

theorem isLiteral_written_ratio (q : Rat) : IsLiteral (written (.ratio q)) ↔ q.den = 1 := by
  rw [written]
  split
  · exact iff_of_true (isLiteral_numeral _) ‹_›
  · refine iff_of_false (fun literal => literal.no_slash ?_) ‹_›
    simp

theorem isLiteral_written (n : Number) : IsLiteral n.written ↔ n.isDecimal = true := by
  cases n with
  | whole z => exact iff_of_true (isLiteral_numeral z) rfl
  | ratio q => exact (isLiteral_written_ratio q).trans beq_iff_eq.symm
  | real x =>
    rw [written]
    split
    · rename_i integer
      refine iff_of_true (isLiteral_numeral _) ?_
      cases x with
      | finite => rfl
      | _ => cases integer
    · exact Binary64.isLiteral_toText x

theorem isDecimal_abs (n : Number) : n.abs.isDecimal = n.isDecimal := by
  cases n with
  | whole => rfl
  | ratio q =>
    rw [abs, Rat.abs]
    split <;> rfl
  | real x => cases x <;> rfl

theorem isDecimal_numeral {z : Int} (nonneg : 0 ≤ z) : IsDecimal (String.ofList (Identifier.numeral z)).toList := by
  rw [String.toList_ofList, Identifier.numeral_of_nonneg nonneg]
  exact .plain (.whole (isDigits_toDigits _))

/-- An amount without its sign is a decimal just if it is one with it. -/
theorem isDecimal_written_abs (n : Number) : IsDecimal n.abs.written.toList ↔ n.isDecimal = true := by
  rw [← isDecimal_abs]
  constructor
  · intro decimal
    rw [← isLiteral_written, IsLiteral, splitSign_decimal decimal]
    exact decimal
  · intro decimal
    cases n with
    | whole z => exact isDecimal_numeral (Int.natCast_nonneg _)
    | ratio q =>
      have size : (0 : Rat) ≤ q.abs := Rat.abs_nonneg
      rw [abs, written, if_pos (eq_of_beq decimal)]
      exact isDecimal_numeral (Rat.num_nonneg.mpr size)
    | real x =>
      cases x with
      | finite negative units =>
        rw [abs, written]
        split
        · exact isDecimal_numeral (Int.natCast_nonneg _)
        · rw [Binary64.abs, Binary64.toText, Binary64.withSign, String.toList_ofList]
          exact Binary64.isDecimal_magnitude units
      | _ => cases decimal

theorem isLiteral_coefficient (n : Number) : IsLiteral n.coefficient ↔ n.isDecimal = true := by
  rw [← isDecimal_written_abs n, IsLiteral, coefficient, String.toList_append]
  split <;> rfl

end Number

/-- A truth value is not written as a number. -/
def Value.IsNumber (v : Value) : Prop := ∃ n, v = .ofNumber n

def Value.IsDecimal (v : Value) : Prop := ∃ n, v = .ofNumber n ∧ n.isDecimal = true

theorem Value.isKind_isNumber : IsKind IsNumber where
  number _ fine := fine
  whole z := ⟨.whole z, rfl⟩

theorem Value.isKind_isDecimal : IsKind IsDecimal where
  number _ fine := fine.imp fun _ both => both.1
  whole z := ⟨.whole z, rfl, rfl⟩

/-- A row over texts under a text, with a target of a kind. -/
structure Constraint.Has (good : Value → Prop) (c : Constraint) : Prop where
  unknowns : ∃ ids : List String, c.unknowns = ids.map .text
  target : good c.target
  name : ∃ s, c.name = .text s

theorem Constraint.Has.exists_shown {good : Value → Prop} {c : Constraint} (kind : Value.IsKind good)
    (has : c.Has good) : ∃ row, c.IsShown row := by
  obtain ⟨⟨ids, unknowns⟩, target, s, name⟩ := has
  obtain ⟨n, number⟩ := kind.number _ target
  exact ⟨⟨s, ids, c.operator, n⟩, unknowns, rfl, number, name⟩

namespace Matcher

variable {table : Table} {m : Matcher} {good : Value → Prop} {taken : Roster} {p : Problem}

/-- If all targets and counts are of a kind, there is a program just if there is an objective, and the targets
in it are of the kind. -/
theorem Stands.compose_has (sound : table.Sound) (kind : Value.IsKind good)
    (stands : m.Stands table (Constraint.Has good) (Count.Has good)) (taken : Roster) : ∃ rows,
      m.compose taken = (do return ⟨.list (m.active.map .text), ← m.objective, rows⟩) ∧
      ∀ p, m.compose taken = .ok p → ∀ row ∈ p.constraints, row.Has good := by
  obtain ⟨counts, made, targets⟩ := stands.countConstraints_ok sound kind taken
  have all : ∀ c ∈ m.constraints ++ counts, c.Has good := by
    refine List.forall_mem_append.mpr ⟨stands.rows, fun c member => ?_⟩
    obtain ⟨⟨ids, unknowns, -⟩, number, name⟩ := stands.count_over sound made c member
    exact ⟨⟨ids, unknowns⟩, targets c member, _, name⟩
  obtain ⟨rows, composed, -⟩ := compose_ok made fun c member => Constraint.keeping_ok (fun n => by
    obtain ⟨t, lowered, -⟩ := kind.atMost (all c member).target n
    exact ⟨t, lowered⟩) _
  refine ⟨rows, composed, fun p found row member => ?_⟩
  obtain ⟨counts', made', -, -, kept⟩ := compose_eq_ok found
  cases made.symm.trans made'
  obtain ⟨c, listed, keeps⟩ := kept row member
  obtain ⟨⟨ids, unknowns⟩, target, name⟩ := all c listed
  obtain ⟨-, lowered, rfl, choice⟩ := Constraint.keeping_eq_some keeps
  refine ⟨⟨_, by rw [unknowns, narrowRow_text]⟩, ?_, name⟩
  rcases choice with rfl | lowers
  · exact target
  · obtain ⟨t, found, fine⟩ := kind.atMost target (narrowRow m.scope c.unknowns).length
    rw [found] at lowers
    cases lowers
    exact fine

end Matcher

namespace Bench

variable {table : Table} {start : Matcher} {actions : List Action} {bench : Bench}

/-- Rows and counts stay of a kind as long as callers ask for what is of the kind. -/
theorem Reached.has {good : Value → Prop} (reached : Reached start actions bench) (kind : Value.IsKind good)
    (fresh : start.Stands table (Constraint.Has good) (Count.Has good))
    (given : ∀ call, .configure call ∈ actions → call.Has good) :
    bench.IsCoherent ∧ bench.desk.matcher.Stands table (Constraint.Has good) (Count.Has good) := by
  refine reached.keeps fresh fun call member desk held => Call.run_stands (given call member).counts ?_ held
  intro desk c row namer held asked checked naming
  have target := asked.target kind.whole (given call member) fun row listed => (held.rows row listed).target
  obtain ⟨s, named, -⟩ := Matcher.nameRow_gives naming
  obtain ⟨name, rfl⟩ := (Matcher.nameRow_renames naming).1
  exact ⟨Call.texts_of_check checked, target, s, named⟩

/-- If callers ask for numbers, whatever has been done before, a program is composed unless weights of a tuple
cannot be added up, and it is written unless a whole number in it has too many digits. Then just the whole numbers,
the fractions that are whole and the finite doubles are written as decimals, and all targets are if those of the
callers are. -/
theorem text_of_numbers {collections : Keyed Value} {backend timeLimit : Value} (mapping : collections.IsMapping)
    (built : Matcher.build collections backend timeLimit = .ok start) (reached : Reached start actions bench)
    (numbers : ∀ call, .configure call ∈ actions → call.Has Value.IsNumber) : ∃ composed next,
    outcome problem bench = (composed, next) ∧
    outcome text bench = (do return (← composed).toText, next) ∧
    ((∃ p, composed = .ok p) ↔ ∃ weights, bench.desk.matcher.objective = .ok weights) ∧
    (∀ failure, composed = .error failure → failure = .tooLarge) ∧
    ∀ p, composed = .ok p → ∃ sheet, p.IsShown sheet ∧ bench.desk.matcher.objective = .ok p.objective ∧
      (sheet.Fits → Answers p.toText sheet.text) ∧ (¬sheet.Fits → Fails p.toText .numeralTooLong) ∧
      (∀ term ∈ sheet.terms, Numeral.IsLiteral term.1.coefficient ↔ term.1.isDecimal = true) ∧
      (∀ row ∈ sheet.rows, Numeral.IsLiteral row.target.written ↔ row.target.isDecimal = true) ∧
      ((∀ call, .configure call ∈ actions → call.Has Value.IsDecimal) →
        ∀ row ∈ sheet.rows, row.target.isDecimal = true) := by
  obtain ⟨table, sound, fresh⟩ := Matcher.stands_of_build mapping built
  obtain ⟨coherent, stands⟩ := reached.has Value.isKind_isNumber (fresh _ _) numbers
  obtain ⟨rows, composed, kept⟩ := stands.compose_has sound Value.isKind_isNumber bench.desk.namer.taken
  obtain ⟨notes, found, -⟩ := problem_tells bench coherent
  have ends := Matcher.objective_numbers fun composer member => (stands.composers composer member).2
  refine ⟨_, _, found, ?_, ?_, ?_, fun p made => ?_⟩
  · rw [text, outcome_bind, found]
    cases bench.desk.problem <;> rfl
  · rw [Desk.problem, composed]
    cases bench.desk.matcher.objective with
    | ok weights => exact iff_of_true ⟨_, rfl⟩ ⟨_, rfl⟩
    | error failure => exact iff_of_false (by rintro ⟨_, ⟨⟩⟩) (by rintro ⟨_, ⟨⟩⟩)
  · intro failure fails
    rw [Desk.problem, composed] at fails
    rcases ends with ⟨weights, known, -⟩ | ⟨cause, known, rfl⟩ <;> rw [known] at fails <;> cases fails
    rfl
  obtain ⟨counts, -, unknowns, objective, -⟩ := Matcher.compose_eq_ok made
  have terms : ∀ term ∈ p.terms, ∃ id n, term = (.text id, .ofNumber n) := by
    intro term member
    obtain ⟨weights, known, all⟩ := ends.resolve_right (by
      rintro ⟨_, known, -⟩
      cases known.symm.trans objective)
    cases known.symm.trans objective
    exact all term (List.mem_of_mem_filter member)
  obtain ⟨sheet, shown, -⟩ := Problem.exists_shown unknowns terms fun c member =>
    (kept p made c member).exists_shown Value.isKind_isNumber
  obtain ⟨written, unwritten⟩ := Problem.toText_shown shown
  refine ⟨sheet, shown, objective, written, unwritten, fun term _ => Number.isLiteral_coefficient term.1,
    fun row _ => Number.isLiteral_written row.target, fun decimal row member => ?_⟩
  obtain ⟨-, stands⟩ := reached.has Value.isKind_isDecimal (fresh _ _) decimal
  obtain ⟨-, -, kept⟩ := stands.compose_has sound Value.isKind_isDecimal bench.desk.namer.taken
  obtain ⟨c, listed, same⟩ := exists_of_mem_right shown.rows member
  obtain ⟨n, target, fine⟩ := (kept p made c listed).target
  rw [same.target] at target
  rwa [Value.ofNumber_inj.mp target]

theorem text_of_numbers_of_grid : ∃ start bench next, Matcher.build Matcher.grid .null .null = .ok start ∧
    Reached start (Matcher.gridCalls.map .configure) bench ∧
    outcome problem bench = (.ok Matcher.gridProgram, next) ∧
    outcome text bench = (.ok Matcher.gridProgram.toText, next) ∧
    Matcher.gridProgram.IsShown Matcher.gridSheet ∧ Answers Matcher.gridProgram.toText Matcher.gridSheet.text ∧
    (∀ term ∈ Matcher.gridSheet.terms, Numeral.IsLiteral term.1.coefficient) ∧
    ∀ row ∈ Matcher.gridSheet.rows, Numeral.IsLiteral row.target.written := by
  obtain ⟨table, bench, built, -, -, reached, coherent, made, -⟩ := exists_grid
  have decimal (z : Int) : Value.IsDecimal (.int z) := ⟨.whole z, rfl, rfl⟩
  have asked := Action.forall_configure (Matcher.gridCalls_has decimal)
  have numbers := Action.forall_configure (Matcher.gridCalls_has Value.isKind_isNumber.whole)
  obtain ⟨composed, next, found, read, -, -, each⟩ := text_of_numbers Matcher.grid_isMapping built reached numbers
  have told := problem_tells.answers coherent
  rw [found, made] at told
  cases told
  obtain ⟨sheet, shown, -, written, -, weights, targets, plain⟩ := each _ rfl
  cases shown.unique Matcher.gridProgram_shown
  have fits := (shown.fits_iff Matcher.gridProgram_isPlain.isWhole).mpr Matcher.gridProgram_fits
  have whole : ∀ term ∈ Matcher.gridSheet.terms, term.1.isDecimal = true := by decide
  exact ⟨_, bench, next, built, reached, found, read, shown, written fits,
    fun term member => (weights term member).mpr (whole term member),
    fun row member => (targets row member).mpr (plain asked row member)⟩

end Bench

theorem Problem.shown_single {id : String} {n : Number} (some : (Value.ofNumber n).equal (.int 0) = false) :
    IsShown ⟨.list [.text id], [(.text id, .ofNumber n)], []⟩ ⟨[(n, id)], [], [id]⟩ where
  unknowns := rfl
  terms := by simp [terms, some]
  rows := .nil

namespace Matcher

/-- When count rows are made, the rule of every collection with an element is put into rows. -/
theorem countRows_of_made {m : Matcher} {taken : Roster} {counts : List Constraint} {entry : Value × Count × Int}
    {e : Value} {elements : List Value} (made : m.countConstraints taken = .ok counts) (listed : entry ∈ m.counts)
    (found : m.space.table.elements entry.1 = .ok elements) (present : e ∈ elements) :
    ∃ ids rows, countRows entry.2.1 entry.2.2 ids = .ok rows := by
  obtain ⟨rows, all, -⟩ := bind_eq_ok.mp made
  obtain ⟨_, -, own⟩ := exists_of_mem_right (mapM_eq_ok.mp all).flip listed
  dsimp only at own
  rw [found, ok_bind] at own
  obtain ⟨parts, each, -⟩ := bind_eq_ok.mp own
  obtain ⟨part, -, single⟩ := exists_of_mem_right (mapM_eq_ok.mp each).flip present
  obtain ⟨ids, -, single⟩ := bind_eq_ok.mp single
  exact ⟨_, part, single⟩

/-- A count that no count row can be made of is found out when the problem is composed. -/
theorem compose_fails_of_count {m : Matcher} {entry : Value × Count × Int} {e : Value} {elements : List Value}
    (listed : entry ∈ m.counts) (found : m.space.table.elements entry.1 = .ok elements) (present : e ∈ elements)
    (unmade : ∀ ids rows, countRows entry.2.1 entry.2.2 ids ≠ .ok rows) (names : Roster) :
    ∃ failure, m.compose names = .error failure := by
  cases composed : m.compose names with
  | error failure => exact ⟨failure, rfl⟩
  | ok p =>
    obtain ⟨counts, made, -⟩ := compose_eq_ok composed
    obtain ⟨ids, rows, each⟩ := countRows_of_made made listed found present
    exact absurd each (unmade ids rows)

/-- A matcher with nothing but one row is composed into a problem with that row. -/
theorem compose_row {m : Matcher} {space : View} {row : Constraint} (grown : m = withRows { space } [row])
    (kept : row.keeping (narrowRow none row.unknowns) = .ok (some row)) (names : Roster) :
    ∃ p, m.compose names = .ok p ∧ row ∈ p.constraints := by
  have rows : m.constraints = [row] := by rw [grown]; rfl
  have composers : m.composers = [] := by rw [grown]; rfl
  have scope : m.scope = none := by rw [grown]; rfl
  have none := countConstraints_none (m := m) (by rw [grown]; rfl) names
  rw [← scope] at kept
  obtain ⟨left, composed, mem⟩ := compose_ok none fun c member => by
    rw [rows, List.append_nil, List.mem_singleton] at member
    rw [member]
    exact ⟨_, kept⟩
  obtain ⟨weights, found, -⟩ := objective_ok (m := m) (by simp [composers]) (by simp [composers])
  rw [found] at composed
  exact ⟨_, composed, mem row (by simp [rows]) row kept⟩

end Matcher

namespace Desk

/-- A number that is not zero, as the weight of the tuple of a single element, is all that a program has to write. -/
theorem shown_of_weight {space : View} {n : Number}
    (built : Matcher.build [(.text "a", .list [.text "x"])] .null .null = .ok { space })
    (sum : Number.add? (.whole 0) n = some n) (some : (Value.ofNumber n).equal (.int 0) = false) : ∃ answer next p,
      (Call.addComposer [] (.ofNumber n)).run.Gives ⟨{ space }, {}⟩ answer next ∧ next.problem = .ok p ∧
        p.IsShown ⟨[(n, "v0")], [], ["v0"]⟩ := by
  obtain ⟨_, built', -, weighs⟩ := Matcher.composer_of_single
  cases built.symm.trans built'
  have checked : Weight.check (.ofNumber n) = .ok (.ofNumber n) := by cases n <;> rfl
  have taken : Weight.take 1 (.ofNumber n) = .ok [.ofNumber n] := by cases n <;> rfl
  have more : (Value.int 0).add (.ofNumber n) = .ok (.ofNumber n) := by
    have zero : (Value.int 0).number = .ok (.whole 0) := rfl
    simp only [Value.add, zero, Value.number_ofNumber, ok_bind, sum, pure_eq_ok]
  obtain ⟨composer, single, weight, step⟩ := weighs (.ofNumber n) checked
  obtain ⟨answer, next, gives, grown⟩ := step ⟨{ space }, {}⟩ rfl
  have composed :=
    (Matcher.compose_once grown single (by rw [weight]; exact taken) more next.namer.taken).2
  exact ⟨answer, next, _, gives, composed, Problem.shown_single some⟩

/-- None of what callers give but the kind of a weight is looked at when it is given. NaN is taken for a weight
and written as a word, a third as a quotient, and a text for a target as it is; a count that is a text cannot be
lowered; weights of which one is whole and too large for a double cannot be added up; and a weight with too many
digits cannot be written. -/
theorem unwritten_of_unchecked : ∃ space : View,
    Matcher.build [(.text "a", .list [.text "x"])] .null .null = .ok { space } ∧
    (∀ n ∈ [Number.real (.nan 0), .ratio (1 / 3)], ∃ answer next p sheet,
      (Call.addComposer [] (.ofNumber n)).run.Gives ⟨{ space }, {}⟩ answer next ∧ next.problem = .ok p ∧
      p.IsShown sheet ∧ Answers p.toText sheet.text ∧
      ∃ term ∈ sheet.terms, ¬Numeral.IsLiteral term.1.coefficient) ∧
    (∃ answer next p, (Call.addRow (.made ⟨[.text "v0"], .le, .text "one", .null, .bool false⟩)).run.Gives
        ⟨{ space }, {}⟩ answer next ∧ next.problem = .ok p ∧
      ∃ row ∈ p.constraints, ∃ label, row.toLine = .ok (label ++ "+v0 <= one;")) ∧
    (∃ answer next failure, (Call.setCount (.text "a") (.exactly (.text "one")) (.int 0)).run.Gives
        ⟨{ space }, {}⟩ answer next ∧ next.problem = .error failure) ∧
    (∃ answer mid answer' next, (Call.addComposer [] (.int (10 ^ 400))).run.Gives ⟨{ space }, {}⟩ answer mid ∧
      (Call.addComposer [] (.real (.finite false 1))).run.Gives mid answer' next ∧
      next.problem = .error .tooLarge) ∧
    ∃ answer next p, (Call.addComposer [] (.int (10 ^ Numeral.digitLimit))).run.Gives ⟨{ space }, {}⟩ answer next ∧
      next.problem = .ok p ∧ Fails p.toText .numeralTooLong := by
  obtain ⟨space, built, ids, weighs⟩ := Matcher.composer_of_single
  have mapping : Keyed.IsMapping [(Value.text "a", Value.list [.text "x"])] := ⟨by decide, by decide⟩
  obtain ⟨table, sound, given, equal⟩ := Matcher.build_eq_ok mapping built
  cases equal
  let desk : Desk := ⟨{ space := .whole table }, {}⟩
  refine ⟨_, built, ?odd, ?target, ?count, ?sum, ?digits⟩
  case odd =>
    intro n member
    have sum : Number.add? (.whole 0) n = some n := by
      rcases List.mem_pair.mp member with rfl | rfl <;> decide +kernel
    have odd : n.Fits ∧ n.isDecimal = false ∧ (Value.ofNumber n).equal (.int 0) = false := by
      rcases List.mem_pair.mp member with rfl | rfl
      · exact ⟨by simp [Number.Fits, Binary64.isInteger], rfl, rfl⟩
      · exact ⟨⟨Numeral.fits_of_digit (by decide +kernel), Numeral.fits_of_digit (by decide +kernel)⟩,
          by decide +kernel, by decide +kernel⟩
    obtain ⟨fits, strange, some⟩ := odd
    obtain ⟨answer, next, p, gives, composed, shown⟩ := shown_of_weight built sum some
    refine ⟨answer, next, p, _, gives, composed, shown, (Problem.toText_shown shown).1 ?_, _, List.mem_cons_self, ?_⟩
    · exact ⟨by simpa using fits, by simp⟩
    · rw [Number.isLiteral_coefficient, strange]
      exact Bool.false_ne_true
  case target =>
    let row : Constraint := ⟨[.text "v0"], .le, .text "one", .null, .bool false⟩
    have contained : (View.whole table).contains (.text "v0") = true := by
      have listed : "v0" ∈ (View.whole table).ids := by rw [ids]; exact List.mem_cons_self
      exact ((View.contains_plain_iff (View.sound_whole sound)).mpr ⟨listed, [0], rfl⟩).1
    have taken : ∀ v ∈ row.unknowns, desk.matcher.space.contains v = true := by simpa [row] using contained
    obtain ⟨answer, next, gives, grown⟩ := Call.addRow_succeeds taken rfl
    let named : Constraint := { row with name := .text desk.namer.hand.1 }
    have only : next.matcher = Matcher.withRows { space := .whole table } [named] := grown
    obtain ⟨p, composed, kept⟩ := Matcher.compose_row only rfl next.namer.taken
    refine ⟨answer, next, p, gives, composed, named, kept, ?_⟩
    rw [Constraint.toLine_eq (show named.unknowns = ["v0"].map .text from rfl) (show named.name = .text _ from rfl)]
    exact ⟨_, congrArg Except.ok (by simp only [String.append_assoc]; rfl)⟩
  case count =>
    obtain ⟨roster, shape, keys⟩ := Table.shape_of_single rfl given
    have inside : (Value.text "a", roster) ∈ table.collections := by rw [shape]; exact List.mem_cons_self
    have known : desk.matcher.space.table.hasName (.text "a") = .ok true :=
      congrArg Except.ok (Keyed.has_iff.mpr ⟨_, List.mem_map_of_mem inside, rfl⟩)
    have read : Count.read (.exactly (.text "one")) = .ok (.exactly (.text "one")) := rfl
    have padded : (Value.int 0).readInt = .ok 0 := rfl
    have gives := Call.setCount_puts known read padded
    have elements : table.elements (.text "a") = .ok roster.keys := Table.elements_of_same sound inside rfl rfl
    let m : Matcher := { space := .whole table, counts := [(.text "a", .exactly (.text "one"), 0)] }
    have listed : (Value.text "a", Count.exactly (.text "one"), 0) ∈ m.counts := List.mem_cons_self
    obtain ⟨failure, fails⟩ := Matcher.compose_fails_of_count listed elements (e := .text "x") (by simp [keys])
      (by rintro _ _ ⟨⟩) desk.namer.taken
    exact ⟨_, _, failure, gives, fails⟩
  case sum =>
    obtain ⟨first, single, weight, step⟩ := weighs (.int (10 ^ 400)) rfl
    obtain ⟨second, single', weight', step'⟩ := weighs (.real (.finite false 1)) rfl
    obtain ⟨answer, mid, gives, grown⟩ := step desk rfl
    obtain ⟨answer', next, gives', grown'⟩ := step' mid (by rw [grown]; rfl)
    rw [grown] at grown'
    have taken : Weight.take 1 first.weight = .ok [.int (10 ^ 400)] := by rw [weight]; rfl
    have taken' : Weight.take 1 second.weight = .ok [.real (.finite false 1)] := by rw [weight']; rfl
    have large : Number.add? (.whole (0 + 10 ^ 400)) (.real (.finite false 1)) = none := by decide +kernel
    have fails : (Value.int (0 + 10 ^ 400)).add (.real (.finite false 1)) = .error .tooLarge := by
      simp only [Value.add, Value.number, Value.number?, Value.orWrongKind, ok_bind, large]
    have composed := (Matcher.compose_twice grown' single single' taken taken' (Value.add_whole rfl rfl)
      next.namer.taken).2
    rw [fails] at composed
    exact ⟨answer, mid, answer', next, gives, gives', composed⟩
  case digits =>
    have sum : Number.add? (.whole 0) (.whole (10 ^ Numeral.digitLimit)) = some (.whole (10 ^ Numeral.digitLimit)) := by
      rw [Number.add?, Int.zero_add]
    have some : (Value.int (10 ^ Numeral.digitLimit)).equal (.int 0) = false := by
      have positive : (10 ^ Numeral.digitLimit : Int) ≠ 0 := Int.ne_of_gt (Int.pow_pos (by decide))
      exact Bool.eq_false_iff.mpr (mt Value.equal_zero_iff.mp positive)
    obtain ⟨answer, next, p, gives, composed, shown⟩ := shown_of_weight built sum some
    refine ⟨answer, next, p, gives, composed, (Problem.toText_shown shown).2 fun fits => ?_⟩
    exact Numeral.not_fits_pow (Nat.le_refl _) (fits.1 _ List.mem_cons_self)

end Desk

end Matchmaking
