import Mathlib.Order.Defs.LinearOrder
import Matchmaking.Proofs.Number.Nearest

/-! How numbers of either kind stand to each other, by their ranks, and how a sum of doubles stands
to a whole number: rounding does not carry it past one that a double holds exactly. -/
namespace Matchmaking

theorem Binary64.one_pos_int : (0 : Int) < Binary64.one := Int.natCast_pos.mpr one_pos

attribute [local irreducible] Binary64.one Binary64.limit

namespace Number

variable {x y : Number} {level other : Int}

section Exact

variable {m n : Rat}

theorem compareOfLessAndEq_intCast (a b : Int) : compareOfLessAndEq (a : Rat) b = compare a b := by
  rw [compare, instOrdInt]
  unfold compareOfLessAndEq
  simp only [Rat.intCast_lt_intCast, Rat.intCast_inj]

theorem compare?_of_rank? (left : x.rank? = some (level, m)) (right : y.rank? = some (other, n)) :
    compare? x y = some ((compare level other).then (compareOfLessAndEq m n)) := by
  cases x with
  | whole a =>
    cases y with
    | whole b =>
      cases left
      cases right
      have positive := Binary64.one_pos_int
      have scaled : compare a b = compare (a * Binary64.one) (b * Binary64.one) := by
        rcases Int.lt_trichotomy a b with less | rfl | more
        · rw [Int.compare_eq_lt.mpr less, Int.compare_eq_lt.mpr (Int.mul_lt_mul_of_pos_right less positive)]
        · simp
        · rw [Int.compare_eq_gt.mpr more, Int.compare_eq_gt.mpr (Int.mul_lt_mul_of_pos_right more positive)]
      rw [compareOfLessAndEq_intCast, ← scaled, Int.compare_eq_eq.mpr rfl]
      rfl
    | _ =>
      rw [compare?, left, right]
      nofun
  | _ =>
    rw [compare?, left, right]
    nofun

theorem lt_iff_of_exact (left : x.rank? = some (level, m)) (right : y.rank? = some (other, n)) :
    x.lt y = true ↔ level < other ∨ level = other ∧ m < n := by
  rw [lt, compare?_of_rank? left right, beq_iff_eq, Option.some.injEq, Ordering.then_eq_lt, Int.compare_eq_lt,
    Int.compare_eq_eq, compareOfLessAndEq_eq_lt]

theorem eq_iff_of_exact (left : x.rank? = some (level, m)) (right : y.rank? = some (other, n)) :
    x.eq y = true ↔ level = other ∧ m = n := by
  rw [eq, compare?_of_rank? left right, beq_iff_eq, Option.some.injEq, Ordering.then_eq_eq, Int.compare_eq_eq,
    compareOfLessAndEq_eq_eq (fun _ => Rat.le_refl) Rat.not_le]

theorem le_iff_of_exact (left : x.rank? = some (level, m)) (right : y.rank? = some (other, n)) :
    x.le y = true ↔ level < other ∨ level = other ∧ m ≤ n := by
  rw [show x.le y = (x.lt y || x.eq y) from rfl, Bool.or_eq_true, lt_iff_of_exact left right,
    eq_iff_of_exact left right, Rat.le_iff_lt_or_eq, and_or_left, or_assoc]

theorem isSome_of_compare? {order : Ordering} (known : compare? x y = some order) :
    x.rank?.isSome = true ∧ y.rank?.isSome = true := by
  unfold compare? at known
  split at known
  · exact ⟨rfl, rfl⟩
  · split at known
    · rename_i left right
      rw [left, right]
      exact ⟨rfl, rfl⟩
    · cases known

theorem rank?_of_le (below : x.le y = true) : ∃ level m other n, x.rank? = some (level, m) ∧
    y.rank? = some (other, n) ∧ (level < other ∨ level = other ∧ m ≤ n) := by
  have ranked : x.rank?.isSome = true ∧ y.rank?.isSome = true := by
    rcases Bool.or_eq_true_iff.mp below with less | equal
    · exact isSome_of_compare? (eq_of_beq less)
    · exact isSome_of_compare? (eq_of_beq equal)
  obtain ⟨⟨level, m⟩, left⟩ := Option.isSome_iff_exists.mp ranked.1
  obtain ⟨⟨other, n⟩, right⟩ := Option.isSome_iff_exists.mp ranked.2
  exact ⟨level, m, other, n, left, right, (le_iff_of_exact left right).mp below⟩

theorem le_trans {z : Number} (first : x.le y = true) (second : y.le z = true) : x.le z = true := by
  obtain ⟨a, l, b, m, left, middle, below⟩ := rank?_of_le first
  obtain ⟨_, _, c, n, found, right, above⟩ := rank?_of_le second
  cases middle.symm.trans found
  rw [le_iff_of_exact left right]
  rcases below with below | ⟨rfl, below⟩
  · exact .inl (by rcases above with above | ⟨rfl, -⟩ <;> omega)
  · rcases above with above | ⟨rfl, above⟩
    · exact .inl above
    · exact .inr ⟨rfl, Rat.le_trans below above⟩

theorem rank?_of_worth? (exact : x.worth? = some m) : x.rank? = some (0, m * (Binary64.one : Int)) := by
  match x with
  | .whole value =>
    cases exact
    rw [rank?, Rat.intCast_mul]
  | .ratio value =>
    cases exact
    rfl
  | .real (.finite negative units) =>
    cases exact
    rw [Rat.div_mul_cancel (Rat.ne_of_gt one_pos)]
    rfl
  | .real (.nan _) | .real (.infinite _) => cases exact

theorem eq_iff_of_worth? (left : x.worth? = some m) (right : y.worth? = some n) : x.eq y = true ↔ m = n := by
  rw [eq_iff_of_exact (rank?_of_worth? left) (rank?_of_worth? right), mul_one_inj]
  simp

theorem lt_iff_of_worth? (left : x.worth? = some m) (right : y.worth? = some n) : x.lt y = true ↔ m < n := by
  rw [lt_iff_of_exact (rank?_of_worth? left) (rank?_of_worth? right), Rat.mul_lt_mul_right one_pos]
  simp

theorem le_iff_of_worth? (left : x.worth? = some m) (right : y.worth? = some n) : x.le y = true ↔ m ≤ n := by
  rw [le_iff_of_exact (rank?_of_worth? left) (rank?_of_worth? right), mul_one_le_mul_one]
  simp

end Exact

section Counted

variable {m n : Int}

theorem lt_iff_of_rank? (left : x.rank? = some (level, (m : Rat))) (right : y.rank? = some (other, (n : Rat))) :
    x.lt y = true ↔ level < other ∨ level = other ∧ m < n := by
  rw [lt_iff_of_exact left right, Rat.intCast_lt_intCast]

theorem eq_iff_of_rank? (left : x.rank? = some (level, (m : Rat))) (right : y.rank? = some (other, (n : Rat))) :
    x.eq y = true ↔ level = other ∧ m = n := by
  rw [eq_iff_of_exact left right, Rat.intCast_inj]

theorem le_iff_of_rank? (left : x.rank? = some (level, (m : Rat))) (right : y.rank? = some (other, (n : Rat))) :
    x.le y = true ↔ level < other ∨ level = other ∧ m ≤ n := by
  rw [le_iff_of_exact left right, Rat.intCast_le_intCast]

end Counted

theorem whole_lt_finite {a : Int} {negative : Bool} {units : Nat} :
    lt (.whole a) (.real (.finite negative units)) = true ↔ a * Binary64.one < Binary64.signed negative units := by
  rw [lt_iff_of_rank? rfl rfl]
  simp

theorem finite_lt_whole {a : Int} {negative : Bool} {units : Nat} :
    lt (.real (.finite negative units)) (.whole a) = true ↔ Binary64.signed negative units < a * Binary64.one := by
  rw [lt_iff_of_rank? rfl rfl]
  simp

theorem toReal?_of_isFinite {v : Int} {value : Binary64} (nearest : Binary64.ofInt v = value)
    (finite : value.isFinite = true) : toReal? (.whole v) = some value := by
  simp only [toReal?, nearest, finite, if_true]

theorem add?_real {value other : Binary64} (read : y.toReal? = some other) :
    add? (.real value) y = some (.real (value.add other)) := by
  cases y <;> simp only [add?, read] <;> rfl

end Number

namespace Binary64

variable {k : Nat} {z : Int}

/-- A number that a double holds stays below what it is below when that is rounded. -/
theorem le_round {x : Number} {a : Int} (rank : x.rank? = some (0, (a : Rat))) (short : IsShort a.natAbs)
    (within : a.natAbs < limit) (below : a ≤ z) : x.le (.real (round (z < 0) z.natAbs 1)) = true := by
  unfold round
  by_cases negative : z < 0
  · have near : nearestUnits z.natAbs 1 ≤ a.natAbs := nearestUnits_le Nat.one_pos short (by omega)
    simp only [negative, decide_true, Nat.lt_of_le_of_lt near within, if_true]
    rw [Number.le_iff_of_rank? rank rfl, signed, if_pos rfl]
    omega
  · simp only [negative, decide_false]
    split
    · rw [Number.le_iff_of_rank? rank rfl, signed, if_neg Bool.false_ne_true]
      rcases Int.lt_or_le 0 a with positive | other
      · have near : a.natAbs ≤ nearestUnits z.natAbs 1 := le_nearestUnits Nat.one_pos short (by omega)
        omega
      · omega
    · rw [Number.le_iff_of_rank? rank rfl]
      exact .inl Int.one_pos

/-- A number that a double holds stays above what it is above when that is rounded. -/
theorem round_le {x : Number} {a : Int} (rank : x.rank? = some (0, (a : Rat))) (short : IsShort a.natAbs)
    (within : a.natAbs < limit) (above : z ≤ a) : Number.le (.real (round (z < 0) z.natAbs 1)) x = true := by
  unfold round
  by_cases negative : z < 0
  · simp only [negative, decide_true]
    split
    · rw [Number.le_iff_of_rank? rfl rank, signed, if_pos rfl]
      rcases Int.lt_or_le a 0 with below | other
      · have near : a.natAbs ≤ nearestUnits z.natAbs 1 := le_nearestUnits Nat.one_pos short (by omega)
        omega
      · omega
    · rw [Number.le_iff_of_rank? rfl rank]
      exact .inl (by decide)
  · have near : nearestUnits z.natAbs 1 ≤ a.natAbs := nearestUnits_le Nat.one_pos short (by omega)
    simp only [negative, decide_false, Nat.lt_of_le_of_lt near within, if_true]
    rw [Number.le_iff_of_rank? rfl rank, signed, if_neg Bool.false_ne_true]
    omega

theorem isShort_whole (small : k ≤ 2 ^ 53) : IsShort (k * one) := by
  have power : ∃ place, one = Nat.pow 2 place := ⟨1074, by unfold one; rfl⟩
  obtain ⟨place, power⟩ := power
  rw [power, Nat.pow_eq]
  exact isShort_mul_two_pow small place

theorem whole_lt_limit (small : k ≤ 2 ^ 53) : k * one < limit := by
  have far : ∃ reach, 2 ^ 53 < reach ∧ limit = reach * one := ⟨Nat.pow 2 1024, by decide +kernel, by unfold limit; rfl⟩
  obtain ⟨reach, far, ends⟩ := far
  rw [ends]
  exact Nat.mul_lt_mul_of_pos_right (Nat.lt_of_le_of_lt small far) one_pos

theorem round_whole {den : Nat} (small : k ≤ 2 ^ 53) (positive : 0 < den) (negative : Bool) :
    round negative (k * one * den) den = .finite negative (k * one) := by
  simp only [round, nearestUnits_mul positive (isShort_whole small), whole_lt_limit small, if_true]

theorem ofInt_eq {v : Int} (small : v.natAbs ≤ 2 ^ 53) : ofInt v = .finite (v < 0) (v.natAbs * one) := by
  have kept := round_whole small Nat.one_pos (v < 0)
  rwa [Nat.mul_one] at kept

theorem toReal?_whole {v : Int} (small : v.natAbs ≤ 2 ^ 53) :
    Number.toReal? (.whole v) = some (.finite (v < 0) (v.natAbs * one)) :=
  Number.toReal?_of_isFinite (ofInt_eq small) rfl

theorem signed_le (negative : Bool) (units : Nat) : signed negative units ≤ units := by
  unfold signed
  split <;> omega

theorem natAbs_signed (negative : Bool) (units : Nat) : (signed negative units).natAbs = units := by
  unfold signed
  split <;> omega

theorem signed_mul (negative : Bool) (count size : Nat) :
    signed negative (count * size) = signed negative count * size := by
  unfold signed
  split
  · rw [Int.natCast_mul, Int.neg_mul]
  · exact Int.natCast_mul count size

theorem natAbs_whole (a : Int) : (a * (one : Int)).natAbs = a.natAbs * one := by
  rw [Int.natAbs_mul, Int.natAbs_natCast]

/-- A double is a whole number just if it is a whole count of ones. -/
theorem isInteger_iff {negative : Bool} {units : Nat} : isInteger (.finite negative units) = true ↔
    ∃ t : Int, signed negative units = t * one := by
  rw [isInteger, beq_iff_eq]
  constructor
  · intro whole
    have shape := Nat.div_mul_cancel (Nat.dvd_of_mod_eq_zero whole)
    exact ⟨signed negative (units / one), by rw [← signed_mul, shape]⟩
  · rintro ⟨t, place⟩
    rw [← natAbs_signed negative units, place, natAbs_whole, Nat.mul_mod_left]

theorem lt_of_mul_one_lt {a b : Int} (less : a * one < b * one) : a < b :=
  Int.lt_of_mul_lt_mul_right less (Int.le_of_lt one_pos_int)

theorem whole_held {a : Int} (small : a.natAbs ≤ 2 ^ 53) :
    IsShort (a * (one : Int)).natAbs ∧ (a * (one : Int)).natAbs < limit := by
  rw [natAbs_whole]
  exact ⟨isShort_whole small, whole_lt_limit small⟩

theorem whole_le_add {s t : Bool} {m n : Nat} {a : Int} (small : a.natAbs ≤ 2 ^ 53)
    (below : a * one ≤ signed s m + signed t n) :
    Number.le (.whole a) (.real (add (.finite s m) (.finite t n))) = true := by
  obtain ⟨short, within⟩ := whole_held small
  unfold add
  dsimp only
  split
  · rename_i none
    rw [none] at below
    rw [Number.le_iff_of_rank? rfl rfl]
    exact .inr ⟨rfl, by simpa [signed] using below⟩
  · exact le_round rfl short within below

theorem add_le_whole {s t : Bool} {m n : Nat} {a : Int} (small : a.natAbs ≤ 2 ^ 53)
    (above : signed s m + signed t n ≤ a * one) :
    Number.le (.real (add (.finite s m) (.finite t n))) (.whole a) = true := by
  obtain ⟨short, within⟩ := whole_held small
  unfold add
  dsimp only
  split
  · rename_i none
    rw [none] at above
    rw [Number.le_iff_of_rank? rfl rfl]
    exact .inr ⟨rfl, by simpa [signed] using above⟩
  · exact round_le rfl short within above

theorem signed_natAbs (v : Int) : signed (v < 0) v.natAbs = v := by
  unfold signed
  split <;> rename_i side <;> simp at side <;> omega

theorem signed_whole (v : Int) : signed (v < 0) (v.natAbs * one) = v * one := by
  rw [signed_mul, signed_natAbs]

variable {negative : Bool} {units : Nat} {v a : Int} {sum : Number}

/-- A double with a whole number added stays above the whole numbers that the exact sum is above. -/
theorem whole_le_add? (added : Number.add? (.real (.finite negative units)) (.whole v) = some sum)
    (term : v.natAbs ≤ 2 ^ 53) (small : a.natAbs ≤ 2 ^ 53) (below : a * one ≤ signed negative units + v * one) :
    Number.le (.whole a) sum = true := by
  rw [Number.add?_real (toReal?_whole term)] at added
  rw [← Option.some.inj added]
  exact whole_le_add small (by rwa [signed_whole])

/-- A double with a whole number added stays below the whole numbers that the exact sum is below. -/
theorem add?_le_whole (added : Number.add? (.real (.finite negative units)) (.whole v) = some sum)
    (term : v.natAbs ≤ 2 ^ 53) (small : a.natAbs ≤ 2 ^ 53) (above : signed negative units + v * one ≤ a * one) :
    Number.le sum (.whole a) = true := by
  rw [Number.add?_real (toReal?_whole term)] at added
  rw [← Option.some.inj added]
  exact add_le_whole small (by rwa [signed_whole])

theorem rank?_add_zero {x : Binary64} (double : x.IsDouble) : (x.add .zero).rank? = x.rank? := by
  cases x with
  | nan => rfl
  | infinite => rfl
  | finite negative units =>
    obtain ⟨short, within⟩ := double
    have kept := nearestUnits_mul Nat.one_pos short
    rw [Nat.mul_one] at kept
    have total : signed negative units + signed false 0 = signed negative units := by simp [signed]
    unfold add zero
    dsimp only
    rw [total, natAbs_signed]
    split
    · rename_i none
      simp only [rank?, none]
      simp [signed]
    · rename_i some
      have side : (decide (signed negative units < 0)) = negative := by
        cases negative <;> simp [signed] at some ⊢
        omega
      simp only [round, kept, within, if_true, side]

end Binary64

end Matchmaking
