import Mathlib.Algebra.Group.Int.Defs
import Matchmaking.Problem.ScaledLibrary
import Matchmaking.Proofs.Constraint.Keeping
import Matchmaking.Proofs.Number.Order
import Matchmaking.Proofs.Stateful

/-! Weights and targets as they are handed to libraries. A whole weight that is not too large is a whole number of
parts a thousand times as large; a target that is not too large is rounded to the side on which the same whole sums
stand in the relation. -/
namespace Matchmaking

attribute [local irreducible] Binary64.one Binary64.limit

open Binary64 (one signed)

/-- Whether a value is a number, of whatever kind, that counts a whole number of ones. -/
def Value.Counts (v : Value) (k : Int) : Prop := ∃ n, v.number? = some n ∧ n.eq (.whole k) = true

def Value.worth? (v : Value) : Option Rat := v.number?.bind Number.worth?

/-- A whole number or a double that is, like its negative, within the whole numbers that doubles hold exactly. -/
def Number.IsModest : Number → Prop
  | .ratio _ => False
  | t => t.abs.le (.whole (2 ^ 53)) = true

instance (t : Number) : Decidable t.IsModest :=
  match t with
  | .ratio _ => .isFalse id
  | .whole _ | .real _ => inferInstanceAs (Decidable (_ = true))

variable {v : Value} {k : Int} {t : Number}

namespace Number

theorem worth?_of_eq (equal : t.eq (.whole k) = true) : t.worth? = some (k : Rat) := by
  have positive := Rat.ne_of_gt one_pos
  cases t with
  | whole value =>
    rw [eq_whole, beq_iff_eq] at equal
    rw [equal]
    rfl
  | ratio q =>
    have place := ((eq_iff_of_exact rfl rfl).mp equal).2
    rw [Rat.intCast_mul] at place
    exact congrArg some (mul_one_inj.mp place)
  | real x =>
    cases x with
    | nan => cases equal
    | infinite negative =>
      rw [eq_iff_of_rank? rfl rfl] at equal
      cases negative <;> simp at equal
    | finite negative units =>
      rw [eq_iff_of_rank? rfl rfl] at equal
      rw [worth?, equal.2, Rat.intCast_mul, Rat.mul_div_cancel positive]

theorem exists_real (equal : t.eq (.whole k) = true) (small : k.natAbs ≤ 2 ^ 53) : ∃ negative,
    Value.realOf t = .ok (.finite negative (k.natAbs * one)) ∧ signed negative k.natAbs = k := by
  have worth := worth?_of_eq equal
  cases t with
  | whole value =>
    rw [eq_whole, beq_iff_eq] at equal
    subst equal
    exact ⟨decide (value < 0), by rw [Value.realOf, Binary64.toReal?_whole small], Binary64.signed_natAbs value⟩
  | ratio q =>
    obtain rfl : q = k := Option.some.inj worth
    have nearest : Binary64.ofRat k = Binary64.ofInt k := rfl
    have found : toReal? (.ratio k) = toReal? (.whole k) := by simp only [toReal?, nearest]
    exact ⟨decide (k < 0), by rw [Value.realOf, found, Binary64.toReal?_whole small], Binary64.signed_natAbs k⟩
  | real x =>
    cases x with
    | nan | infinite => cases worth
    | finite negative units =>
      rw [eq_iff_of_rank? rfl rfl] at equal
      have place := equal.2
      have size : units = k.natAbs * one := by
        rw [← Binary64.natAbs_signed negative units, place, Binary64.natAbs_whole]
      rw [size, Binary64.signed_mul] at place
      have positive : (one : Int) ≠ 0 := Int.ne_of_gt Binary64.one_pos_int
      exact ⟨negative, by rw [size]; rfl, Int.eq_of_mul_eq_mul_right positive place⟩

end Number

theorem readReal_of_number (number : v.number? = some t) : v.readReal = Value.realOf t := by
  cases v <;> cases number <;> rfl

theorem scaledWeight_of {x product : Binary64} {parts : Int} (read : v.readReal = .ok x)
    (multiplied : x.mul (.ofInt weightScale) = product) (rounded : product.nearestInt? = some parts) :
    scaledWeight v = .ok parts := by
  simp only [scaledWeight, read, ok_bind, multiplied, rounded, wholeOf]

theorem scaledWeight_eq (counts : v.Counts k) (small : k.natAbs ≤ 9 * 10 ^ 12) : scaledWeight v = .ok (1000 * k) := by
  obtain ⟨n, number, equal⟩ := counts
  obtain ⟨negative, real, whole⟩ := Number.exists_real equal (by omega)
  have factor : Binary64.ofInt weightScale = .finite false (1000 * one) := Binary64.ofInt_eq (by decide)
  have product : Binary64.mul (.finite negative (k.natAbs * one)) (.finite false (1000 * one)) =
      .finite negative (k.natAbs * 1000 * one) := by
    have kept := Binary64.round_whole (k := k.natAbs * 1000) (by omega) Binary64.one_pos negative
    have exact : k.natAbs * one * (1000 * one) = k.natAbs * 1000 * one * one := by ac_rfl
    rw [Binary64.mul, Bool.bne_false, exact, kept]
  have parts : signed negative (k.natAbs * 1000) = 1000 * k := by
    rw [Binary64.signed_mul, whole, Int.mul_comm]
    rfl
  refine scaledWeight_of ((readReal_of_number number).trans real) (by rw [factor, product]) ?_
  rw [Binary64.nearestInt?, nearestEven_mul _ Binary64.one_pos, parts]

namespace Number

theorem IsModest.forms (modest : t.IsModest) : (∃ k : Int, t = .whole k ∧ k.natAbs ≤ 2 ^ 53) ∨
    ∃ negative units, t = .real (.finite negative units) ∧ units ≤ 2 ^ 53 * one := by
  cases t with
  | whole k =>
    have modest : (whole k).abs.le (.whole (2 ^ 53)) = true := modest
    rw [abs, le_whole, decide_eq_true_eq] at modest
    exact .inl ⟨k, rfl, by omega⟩
  | ratio => cases modest
  | real x =>
    cases x with
    | nan => cases modest
    | infinite => cases modest
    | finite negative units =>
      have modest : (real (.finite negative units)).abs.le (.whole (2 ^ 53)) = true := modest
      rw [abs, Binary64.abs, le_iff_of_rank? rfl rfl, signed, if_neg Bool.false_ne_true] at modest
      exact .inr ⟨negative, units, rfl, by omega⟩

theorem IsModest.exists_worth (modest : t.IsModest) : ∃ q, t.worth? = some q := by
  rcases modest.forms with ⟨k, rfl, -⟩ | ⟨negative, units, rfl, -⟩ <;> exact ⟨_, rfl⟩

end Number

namespace Operator

variable {op : Operator} {sum other m : Int}

theorem relates_of_rank? (place : t.rank? = some (0, (m : Rat))) :
    op.relates (.whole sum) t = op.holds (sum * one) m := by
  have start : Number.rank? (.whole sum) = some (0, ((sum * one : Int) : Rat)) := rfl
  rw [Bool.eq_iff_iff]
  cases op with
  | eq => simp [relates, holds, Number.eq_iff_of_rank? start place]
  | le => simp [relates, holds, Number.le_iff_of_rank? start place]
  | ge => simp [relates, holds, Number.le_iff_of_rank? place start]

theorem holds_mul_one : op.holds (sum * one) (other * one) = op.holds sum other := by
  have positive := Binary64.one_pos_int
  rw [Bool.eq_iff_iff]
  cases op with
  | eq => simp [holds, Int.mul_eq_mul_right_iff (Int.ne_of_gt positive)]
  | le => simp [holds, Int.mul_le_mul_right positive]
  | ge => simp [holds, Int.mul_le_mul_right positive]

theorem holds_floor : le.holds (sum * one) m = le.holds sum (m / one) := by
  rw [Bool.eq_iff_iff]
  simp [holds, Int.le_ediv_iff_mul_le Binary64.one_pos_int]

theorem holds_ceil : ge.holds (sum * one) m = ge.holds sum (-(-m / one)) := by
  rw [Bool.eq_iff_iff]
  have turned := @Int.le_ediv_iff_mul_le (-sum) (-m) one Binary64.one_pos_int
  simp only [holds, decide_eq_true_eq]
  rw [Int.neg_mul] at turned
  omega

theorem relates_of_worth? {q : Rat} (worth : t.worth? = some q) : op.relates (.whole sum) t = op.compares sum q := by
  have start : Number.worth? (.whole sum) = some (sum : Rat) := rfl
  rw [Bool.eq_iff_iff]
  cases op with
  | eq => simp [relates, compares, Number.eq_iff_of_worth? start worth]
  | le => simp [relates, compares, Number.le_iff_of_worth? start worth]
  | ge => simp [relates, compares, Number.le_iff_of_worth? worth start]

end Operator

namespace ScaledLibrary

variable {op : Operator} {x : Binary64}

theorem wholeTarget_of_isInteger (read : v.readReal = .ok x) (whole : x.isInteger = true) (count : v.readInt = .ok k) :
    wholeTarget op v = .ok k := by
  simp only [wholeTarget, read, ok_bind, whole, if_true, count]

theorem wholeTarget_of_fraction {negative : Bool} {units : Nat}
    (fraction : Binary64.isInteger (.finite negative units) = false) :
    wholeTarget op (.real (.finite negative units)) =
      .ok (if op = .ge then -(-signed negative units / one) else signed negative units / one) := by
  have read : (Value.real (.finite negative units)).readReal = .ok (.finite negative units) := rfl
  simp only [wholeTarget, read, ok_bind, fraction]
  cases op <;> rfl

theorem natAbs_ediv_one_le {m : Int} (bound : m.natAbs ≤ 2 ^ 53 * one) : (m / one).natAbs ≤ 2 ^ 53 := by
  have low : -2 ^ 53 ≤ m / one := (Int.le_ediv_iff_mul_le Binary64.one_pos_int).mpr (by omega)
  have high : m / one ≤ 2 ^ 53 := Int.ediv_le_of_le_mul Binary64.one_pos_int (by omega)
  omega

theorem readInt_real {negative : Bool} {units : Nat} (place : signed negative units = k * one)
    (small : k.natAbs ≤ 2 ^ 53) : (Value.real (.finite negative units)).readInt = .ok k := by
  have equal : Number.eq (.real (.finite negative units)) (.whole k) = true :=
    (Number.eq_iff_of_rank? rfl rfl).mpr ⟨rfl, place⟩
  obtain ⟨side, real, truncated⟩ := Number.exists_real equal small
  obtain ⟨rfl, size⟩ := Binary64.finite.inj (Except.ok.inj real)
  have quotient : units / one = k.natAbs := by rw [size, Nat.mul_div_cancel _ Binary64.one_pos]
  rw [Value.readInt, Binary64.truncate?, quotient, truncated]
  exact fun _ other => Binary64.noConfusion other

/-- Whole sums stand to a fraction as to the whole number beside it, but none is equal to it. -/
theorem relates_fraction {negative : Bool} {units : Nat}
    (fraction : Binary64.isInteger (.finite negative units) = false) (sum : Int) :
    op.relates (.whole sum) (.real (.finite negative units)) = (op != .eq && op.holds sum
      (if op = .ge then -(-signed negative units / one) else signed negative units / one)) := by
  have place : Number.rank? (.real (.finite negative units)) = some (0, (signed negative units : Rat)) := rfl
  rw [Operator.relates_of_rank? place]
  cases op with
  | eq =>
    refine Bool.eq_false_iff.mpr fun equal => ?_
    have hit : sum * one = signed negative units := eq_of_beq equal
    rw [Binary64.isInteger_iff.mpr ⟨sum, hit.symm⟩] at fraction
    cases fraction
  | le => exact Operator.holds_floor
  | ge => exact Operator.holds_ceil

/-- The whole target of a row, and whether the target is whole: the same whole sums stand in the
relation to both, but to a fraction none is equal. -/
theorem wholeTarget_ends (op : Operator) (number : v.number? = some t) (modest : t.IsModest) :
    ∃ whole x, wholeTarget op v = .ok whole ∧ v.readReal = .ok x ∧ whole.natAbs ≤ 2 ^ 53 ∧
      ∀ sum : Int, op.relates (.whole sum) t = ((op != .eq || x.isInteger) && op.holds sum whole) := by
  rcases modest.forms with ⟨k, rfl, small⟩ | ⟨negative, units, rfl, bound⟩
  · have read : v.readReal = .ok (.finite (k < 0) (k.natAbs * one)) := by
      rw [readReal_of_number number, Value.realOf, Binary64.toReal?_whole small]
    have count : v.readInt = .ok k := by cases v <;> cases number <;> rfl
    have whole : Binary64.isInteger (.finite (k < 0) (k.natAbs * one)) = true := by simp [Binary64.isInteger]
    exact ⟨k, _, wholeTarget_of_isInteger read whole count, read, small, fun sum => by simp [whole]⟩
  · have kind : v = .real (.finite negative units) := by
      cases v with
      | real => cases number; rfl
      | _ => cases number
    subst kind
    have size := Binary64.natAbs_signed negative units
    cases whole : Binary64.isInteger (.finite negative units) with
    | true =>
      obtain ⟨count, exact⟩ := Binary64.isInteger_iff.mp whole
      have within : count.natAbs ≤ 2 ^ 53 := by
        rw [← size, exact, Binary64.natAbs_whole] at bound
        exact Nat.le_of_mul_le_mul_right bound Binary64.one_pos
      refine ⟨count, _, wholeTarget_of_isInteger rfl whole (readInt_real exact within), rfl, within, fun sum => ?_⟩
      have place : Number.rank? (.real (.finite negative units)) = some (0, ((count * one : Int) : Rat)) :=
        congrArg (fun m : Int => some (0, (m : Rat))) exact
      rw [Operator.relates_of_rank? place, Operator.holds_mul_one, whole, Bool.or_true, Bool.true_and]
    | false =>
      refine ⟨_, _, wholeTarget_of_fraction whole, rfl, ?_, fun sum => ?_⟩
      · have floor := natAbs_ediv_one_le (m := signed negative units) (by omega)
        have ceil := natAbs_ediv_one_le (m := -signed negative units) (by omega)
        split <;> omega
      · rw [relates_fraction whole, whole, Bool.or_false]

end ScaledLibrary

end Matchmaking
