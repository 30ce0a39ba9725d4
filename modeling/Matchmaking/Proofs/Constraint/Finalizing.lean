import Matchmaking.Proofs.Constraint.Comparison

/-! Rows that are made from a written relation and finalized without a universe, any number of
times. A finalized row is made anew from its own parts, among which the operator no longer is a
word, so the target is moved just once. -/
namespace Matchmaking.Constraint

def remade (c : Constraint) : Except Failure Constraint :=
  make (.list c.unknowns) (.operator c.operator) c.target c.name c.flexible

/-- What a row becomes when it is finalized without a universe. -/
def copy (c : Constraint) : Except Failure (Option Constraint) := do
  match ← c.finalize none with
  | none => return none
  | some row => return some (← row.remade)

/-- What is left of a row when its outcome is finalized some number of times again. -/
def copies : Nat → Constraint → Except Failure (Option Constraint)
  | 0, c => c.copy
  | n + 1, c => do
    match ← c.copy with
    | none => return none
    | some row => copies n row

variable {c : Constraint}

theorem copy_eq (rigid : c.isLenient = false) (some : c.unknowns ≠ []) : c.copy = .ok (.some c) := by
  have present : c.unknowns.isEmpty = false := by simpa using some
  have kept : c.finalize none = .ok (.some c) := by
    simp only [finalize, keeping, present, rigid]
    rfl
  simp only [copy, kept, ok_bind]
  rfl

theorem copies_eq (rigid : c.isLenient = false) (some : c.unknowns ≠ []) (n : Nat) : copies n c = .ok (.some c) := by
  induction n with
  | zero => exact copy_eq rigid some
  | succ n ih => simp only [copies, copy_eq rigid some, ok_bind, ih]

/-- A row from a spelled relation has the inclusive relation and the moved target. -/
theorem make_spelled {r : Comparison} {text : String} (spelled : r.IsSpelled text) {target : Value} {t moved : Number}
    (number : target.number? = some t) (added : t.add? (.whole r.shift) = some moved) (unknowns : List Value)
    (name flexible : Value) : make (.list unknowns) (.text text) target name flexible =
      .ok { unknowns, operator := r.inclusive, target := .ofNumber moved, name, flexible } := by
  have sum : target.add (.int r.shift) = .ok (.ofNumber moved) := by
    have term : (Value.int r.shift).number? = some (.whole r.shift) := rfl
    simp only [Value.add, Value.number, number, term, Value.orWrongKind, ok_bind, added]
    rfl
  simp only [make, Comparison.normalize_eq spelled, sum, ok_bind]
  rfl

theorem number?_ofNumber (n : Number) : (Value.ofNumber n).number? = some n := by cases n <;> rfl

theorem exists_moved (r : Comparison) (t : Number) : ∃ moved, t.add? (.whole r.shift) = some moved := by
  cases t with
  | whole v => exact ⟨_, rfl⟩
  | ratio q => exact ⟨_, rfl⟩
  | real x =>
    have small : r.shift.natAbs ≤ 2 ^ 53 := by cases r <;> decide
    exact ⟨_, Number.add?_real (Binary64.toReal?_whole small)⟩

/-- However often a row is finalized, it asks for the inclusive relation to the moved target. That is the
relation that was written, unless it was a strict one to a fraction; then it asks for more. -/
theorem satisfied_of_spelled {r : Comparison} {text : String} (spelled : r.IsSpelled text) {ids : List String}
    (nonempty : ids ≠ []) {target : Value} {t : Number} (number : target.number? = some t) (double : t.IsExact)
    (name : Value) {flexible : Value} (rigid : flexible.truth = false) :
    ∃ c moved, make (.list (ids.map .text)) (.text text) target name flexible = .ok c ∧
      t.add? (.whole r.shift) = some moved ∧ ∀ n, ∃ row, copies n c = .ok (some row) ∧
        ∀ chosen : String → Bool,
          row.isSatisfied chosen = r.inclusive.relates (.whole (ids.countP chosen)) moved ∧
          (r.isStrict = false ∨ t.isFractional = false ∧ t.Resolves ids.length →
            row.isSatisfied chosen = r.holds (.whole (ids.countP chosen)) t) ∧
          (t.Resolves ids.length → row.isSatisfied chosen = true → r.holds (.whole (ids.countP chosen)) t = true) := by
  obtain ⟨moved, added⟩ := exists_moved r t
  have made := make_spelled spelled number added (ids.map .text) name flexible
  refine ⟨_, moved, made, added, fun n => ⟨_, copies_eq ?_ ?_ n, fun chosen => ?_⟩⟩
  · simp only [isLenient, rigid, Bool.false_and]
  · simpa using nonempty
  have asked : isSatisfied chosen
      { unknowns := ids.map .text, operator := r.inclusive, target := .ofNumber moved, name, flexible } =
      r.inclusive.relates (.whole (ids.countP chosen)) moved := by
    rw [isSatisfied, number?_ofNumber, Option.any_some, total_text rfl]
  have few : ids.countP chosen ≤ ids.length := List.countP_le_length
  rw [asked]
  cases strict : r.isStrict with
  | false =>
    have kept := Comparison.relates_of_not_strict strict double added (.whole (ids.countP chosen))
    exact ⟨rfl, fun _ => kept, fun _ satisfied => kept ▸ satisfied⟩
  | true =>
    refine ⟨rfl, ?_, fun resolves => Comparison.holds_of_relates strict resolves few added⟩
    rintro (inclusive | ⟨plain, resolves⟩)
    · cases inclusive
    · exact Bool.eq_iff_iff.mpr ⟨Comparison.holds_of_relates strict resolves few added,
        Comparison.relates_of_holds strict resolves few plain added⟩

/-- A row with a repeated identifier, above one as a double and between blanks. -/
theorem satisfied_above_one : ∃ c, make (.list [.text "v0", .text "v1", .text "v0"]) (.text "\t> ")
      (.real (.finite false Binary64.one)) .null (.bool false) = .ok c ∧ ∀ n, ∃ row, copies n c = .ok (some row) ∧
        ∀ chosen : String → Bool, row.isSatisfied chosen =
          Comparison.gt.holds (.whole (["v0", "v1", "v0"].countP chosen)) (.real (.finite false Binary64.one)) := by
  have spelled : Comparison.gt.IsSpelled "\t> " :=
    ⟨['\t'], [' '], ">", by decide, List.all_eq_true.mp rfl, List.all_eq_true.mp rfl, rfl⟩
  have double : Binary64.IsDouble (.finite false Binary64.one) := ⟨by decide +kernel, by decide +kernel⟩
  have number : (Value.real (.finite false Binary64.one)).number? = some (.real (.finite false Binary64.one)) := rfl
  have rigid : (Value.bool false).truth = false := rfl
  obtain ⟨c, _, made, _, all⟩ :=
    satisfied_of_spelled spelled (List.cons_ne_nil "v0" ["v1", "v0"]) number double .null rigid
  refine ⟨c, made, fun n => ?_⟩
  obtain ⟨row, copied, kept⟩ := all n
  have plain : Number.isFractional (.real (.finite false Binary64.one)) = false := by decide +kernel
  exact ⟨row, copied, fun chosen => (kept chosen).2.1 (.inr ⟨plain, .inl (by decide)⟩)⟩

def oneAndHalf : Binary64 := .finite false (3 * Nat.pow 2 1073)

/-- One is below one and a half but does not satisfy the row that asks for a sum below it. -/
theorem unsatisfied_below_fraction : ∃ c row,
    make (.list [.text "v0"]) (.text "<") (.real oneAndHalf) .null (.bool false) = .ok c ∧
      copies 0 c = .ok (some row) ∧ row.isSatisfied (fun _ => true) = false ∧
      Comparison.lt.holds (.whole (["v0"].countP fun _ => true)) (.real oneAndHalf) = true := by
  have spelled : Comparison.lt.IsSpelled "<" :=
    ⟨[], [], "<", by decide, List.all_eq_true.mp rfl, List.all_eq_true.mp rfl, rfl⟩
  have number : (Value.real oneAndHalf).number? = some (.real oneAndHalf) := rfl
  have term : Number.toReal? (.whole Comparison.lt.shift) = some (.finite true Binary64.one) := by decide +kernel
  have made := make_spelled spelled number (Number.add?_real term) [.text "v0"] .null (.bool false)
  refine ⟨_, _, made, copies_eq rfl (List.cons_ne_nil _ _) 0, ?_, by decide +kernel⟩
  simp only [isSatisfied, number?_ofNumber]
  decide +kernel

end Matchmaking.Constraint
