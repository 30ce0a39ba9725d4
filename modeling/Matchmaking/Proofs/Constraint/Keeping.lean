import Matchmaking.Constraint.Basic
import Matchmaking.Proofs.Success

/-! When a choice of variables satisfies a row, and what is left of a row in a program: its
remaining variables, if there are any, with a target that a flexible lower bound lowers to
their number. -/
namespace Matchmaking

namespace Number

@[simp] theorem lt_whole (m n : Int) : lt (.whole m) (.whole n) = decide (m < n) := by
  rw [Bool.eq_iff_iff]
  simp [lt, compare?, Int.compare_eq_lt]

@[simp] theorem eq_whole (m n : Int) : eq (.whole m) (.whole n) = (m == n) := by
  rw [Bool.eq_iff_iff]
  simp [eq, compare?]

@[simp] theorem le_whole (m n : Int) : le (.whole m) (.whole n) = decide (m ≤ n) := by
  rw [Bool.eq_iff_iff]
  simp only [le, compare?, Bool.or_eq_true, beq_iff_eq, Option.some.injEq, Int.compare_eq_lt,
    Int.compare_eq_eq, decide_eq_true_eq]
  omega

end Number

namespace Operator

def relates (op : Operator) (sum target : Number) : Bool :=
  match op with
  | .eq => sum.eq target
  | .le => sum.le target
  | .ge => target.le sum

@[simp] theorem relates_whole (op : Operator) (sum target : Int) :
    op.relates (.whole sum) (.whole target) = op.holds sum target := by
  cases op <;> simp [relates, holds]

end Operator

theorem Value.number_ofNumber (n : Number) : (Value.ofNumber n).number = .ok n := by cases n <;> rfl

@[simp] theorem Value.atMost_int (target count : Int) :
    (Value.int target).atMost count = .ok (.int (min target count)) := by
  simp only [atMost, number, number?, orWrongKind, ok_bind, pure_eq_ok, Number.lt_whole]
  by_cases less : count < target
  · simp [less, Int.min_eq_right (Int.le_of_lt less)]
  · simp [less, Int.min_eq_left (Int.not_lt.mp less)]

namespace Constraint

variable {c : Constraint} {unknowns : List Value}

def total (chosen : String → Bool) (c : Constraint) : Nat :=
  c.unknowns.countP fun v => v.text?.any chosen

def isSatisfied (chosen : String → Bool) (c : Constraint) : Bool :=
  c.target.number?.any fun target => c.operator.relates (.whole (c.total chosen)) target

theorem total_text {chosen : String → Bool} {ids : List String} (texts : c.unknowns = ids.map .text) :
    c.total chosen = ids.countP chosen := by
  rw [total, texts, List.countP_map]
  rfl

theorem isSatisfied_int {chosen : String → Bool} {t : Int} (whole : c.target = .int t) :
    c.isSatisfied chosen = c.operator.holds (c.total chosen) t := by
  simp [isSatisfied, whole, Value.number?]

theorem keeping_nil (c : Constraint) : c.keeping [] = .ok none := rfl

/-- What a row asks for once it is left with some number of variables. -/
def targetAmong (c : Constraint) (t : Int) (left : Nat) : Int := if c.isLenient then min t left else t

theorem keeping_int {t : Int} (whole : c.target = .int t) (some : unknowns ≠ []) :
    c.keeping unknowns = .ok (.some { c with unknowns, target := .int (c.targetAmong t unknowns.length) }) := by
  have present : unknowns.isEmpty = false := by simpa using some
  rw [keeping, present, targetAmong, whole]
  cases c.isLenient <;> simp

/-- A row that is kept is over what is left of its variables, and its target may be lowered to their
number. -/
theorem keeping_eq_some {row : Constraint} (kept : c.keeping unknowns = .ok (some row)) : unknowns ≠ [] ∧
    ∃ target, row = { c with unknowns, target } ∧
      (target = c.target ∨ c.target.atMost unknowns.length = .ok target) := by
  unfold keeping at kept
  split at kept
  · cases kept
  · rename_i present
    refine ⟨by simpa using present, ?_⟩
    dsimp only at kept
    split at kept
    · obtain ⟨target, lowered, kept⟩ := bind_eq_ok.mp kept
      cases kept
      exact ⟨target, rfl, .inr lowered⟩
    · cases kept
      exact ⟨c.target, rfl, .inl rfl⟩

theorem keeping_ok (lowers : ∀ n, ∃ t, c.target.atMost n = .ok t) (unknowns : List Value) :
    ∃ kept, c.keeping unknowns = .ok kept := by
  obtain ⟨t, lowered⟩ := lowers unknowns.length
  unfold keeping
  split
  · exact ⟨none, rfl⟩
  · cases c.isLenient with
    | true => exact ⟨_, by simp only [lowered, if_true, ok_bind]; rfl⟩
    | false => exact ⟨_, rfl⟩

theorem keeping_named (c : Constraint) (name : Value) (unknowns : List Value) :
    { c with name }.keeping unknowns = (c.keeping unknowns).map (Option.map ({ · with name })) := by
  unfold keeping
  split
  · rfl
  · have lenient : { c with name }.isLenient = c.isLenient := rfl
    rw [lenient]
    cases c.isLenient
    · rfl
    · cases c.target.atMost unknowns.length <;> simp [Except.map]

end Constraint

end Matchmaking
