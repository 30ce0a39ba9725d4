import Matchmaking.Number.Literal
import Matchmaking.Proofs.Number.Order

/-! Numerals that are near one. A numeral is read as a double, the difference to one is rounded and so is the
millionth that it is compared with, but all this makes no difference: from a half on, doubles lie on a grid
on which differences are exact and no place lies between the millionth and what it is rounded to. -/
namespace Matchmaking

attribute [local irreducible] Binary64.one Binary64.limit

namespace Binary64

variable {num den units : Nat} {negative : Bool}

theorem isShort_nearestUnits (positive : 0 < den) : IsShort (nearestUnits num den) := by
  refine isShort_mul_two_pow (nearestEven_le (Nat.mul_pos positive (Nat.two_pow_pos _)) ?_) _
  have below : num / den < 2 ^ 53 * 2 ^ lastPlace (num / den) := by
    rw [← Nat.pow_add]
    refine Nat.lt_of_lt_of_le Nat.lt_log2_self (Nat.pow_le_pow_right (by decide) ?_)
    unfold lastPlace
    omega
  have scaled := (Nat.div_lt_iff_lt_mul positive).mp below
  exact Nat.le_of_lt (Nat.lt_of_lt_of_eq scaled (by rw [Nat.mul_comm, Nat.mul_left_comm]))

theorem isDouble_round (positive : 0 < den) : (round negative num den).IsDouble := by
  unfold round
  dsimp only
  split
  · rename_i within
    exact ⟨isShort_nearestUnits positive, within⟩
  · exact trivial

theorem isDouble_ofDecimal (d : Decimal) : (ofDecimal negative d).IsDouble := by
  have positive : 0 < d.quotient.2 := by
    unfold Decimal.quotient
    split
    · exact Nat.one_pos
    · exact Nat.pow_pos (by decide)
  unfold ofDecimal
  dsimp only
  split
  · exact ⟨Nat.dvd_zero _, by unfold limit one; decide +kernel⟩
  · split
    · exact trivial
    · exact isDouble_round positive

end Binary64

theorem Numeral.isDouble_of_readReal? {s : String} {x : Binary64} (read : readReal? s = some x) : x.IsDouble := by
  simp only [readReal?, readPlainReal?, Option.bind_eq_bind, Option.bind_eq_some_iff] at read
  obtain ⟨body, -, read⟩ := read
  split at read
  · cases read
    trivial
  · split at read
    · cases read
      trivial
    · obtain ⟨d, -, read⟩ := Option.bind_eq_some_iff.mp read
      cases read
      exact Binary64.isDouble_ofDecimal d

namespace Binary64

variable {units : Nat} {negative : Bool}

def halfStep : Nat := Nat.pow 2 1020

theorem halfStep_pos : 0 < halfStep := by decide +kernel

theorem halfStep_power : ∃ place, halfStep = 2 ^ place ∧ one = 2 ^ (54 + place) := by
  have powers : ∃ place, halfStep = Nat.pow 2 place ∧ one = Nat.pow 2 (54 + place) :=
    ⟨1020, by decide +kernel, by decide +kernel⟩
  simpa only [Nat.pow_eq] using powers

theorem one_eq : one = 2 ^ 54 * halfStep := by
  obtain ⟨place, step, whole⟩ := halfStep_power
  rw [step, whole, Nat.pow_add]

attribute [local irreducible] halfStep

/-- A whole number of half steps that is not too large fits into a significand. -/
theorem isShort_steps {k : Nat} (small : k ≤ 2 ^ 53) : IsShort (k * halfStep) := by
  obtain ⟨place, step, -⟩ := halfStep_power
  rw [step]
  exact isShort_mul_two_pow small place

theorem steps_of_half (short : IsShort units) (half : one ≤ 2 * units) : ∃ k, units = 2 * k * halfStep := by
  obtain ⟨place, step, whole⟩ := halfStep_power
  have reached : 2 ^ (53 + place) ≤ units := by
    have doubled : 2 ^ (54 + place) = 2 * 2 ^ (53 + place) := by rw [← Nat.pow_succ', Nat.succ_add]
    omega
  have some : units ≠ 0 := Nat.ne_of_gt (Nat.lt_of_lt_of_le (Nat.two_pow_pos _) reached)
  have digits : 53 + place ≤ units.log2 := (Nat.le_log2 some).mpr reached
  have finer : 2 ^ (place + 1) ∣ units :=
    Nat.dvd_trans (Nat.pow_dvd_pow 2 (by unfold lastPlace; omega)) short
  obtain ⟨k, rfl⟩ := finer
  exact ⟨k, by rw [step, Nat.pow_succ]; ac_rfl⟩

def millionth : Nat := nearestUnits one 1000000

theorem millionth_bounds : 18014398509 * halfStep ≤ millionth ∧ millionth ≤ 18014398510 * halfStep := by
  have lower : IsShort (18014398509 * halfStep) := isShort_steps (by decide)
  have upper : IsShort (18014398510 * halfStep) := isShort_steps (by decide)
  have exact := one_eq
  exact ⟨le_nearestUnits (by decide) lower (by omega), nearestUnits_le (by decide) upper (by omega)⟩

/-- No whole number of steps lies between the millionth and what it is rounded to. -/
theorem steps_near_iff (j : Nat) :
    nearestUnits (2 * j * halfStep) 1 < millionth ↔ 1000000 * (2 * j * halfStep) < one := by
  obtain ⟨low, high⟩ := millionth_bounds
  have positive := halfStep_pos
  rw [one_eq, ← Nat.mul_assoc, Nat.mul_lt_mul_right positive]
  constructor
  · intro near
    by_contra far
    have reached : 18014398510 ≤ 2 * j := by omega
    have kept : 18014398510 * halfStep ≤ nearestUnits (2 * j * halfStep) 1 :=
      le_nearestUnits Nat.one_pos (isShort_steps (by decide)) (by
        rw [Nat.mul_one]
        exact Nat.mul_le_mul_right _ reached)
    omega
  · intro near
    have reached : 2 * j ≤ 18014398508 := by omega
    have kept : nearestUnits (2 * j * halfStep) 1 ≤ 18014398508 * halfStep :=
      nearestUnits_le Nat.one_pos (isShort_steps (by decide)) (by
        rw [Nat.mul_one]
        exact Nat.mul_le_mul_right _ reached)
    omega

/-- The rounded difference to one is below the rounded millionth just if the exact one is below the exact one. -/
theorem near_iff (short : IsShort units) : nearestUnits (signed negative units - one).natAbs 1 < millionth ↔
    1000000 * (signed negative units - one).natAbs < one := by
  have unit := one_eq
  by_cases half : (one : Int) ≤ 2 * signed negative units
  · have side : signed negative units = units := by
      cases negative with
      | true =>
        simp only [signed, if_true] at half ⊢
        omega
      | false => rfl
    obtain ⟨k, rfl⟩ := steps_of_half short (by omega)
    have apart : (signed negative (2 * k * halfStep) - one).natAbs = 2 * (k - 2 ^ 53 : Int).natAbs * halfStep := by
      have split : ((2 * k * halfStep : Nat) : Int) - one = 2 * (k - 2 ^ 53) * halfStep := by
        rw [unit, Int.natCast_mul (2 * k), Int.natCast_mul (2 ^ 54), ← Int.sub_mul]
        congr 1
        omega
      rw [side, split, Int.natAbs_mul, Int.natAbs_mul, Int.natAbs_natCast]
      rfl
    rw [apart]
    exact steps_near_iff _
  · have reached : 2 ^ 53 * halfStep * 1 ≤ (signed negative units - one).natAbs := by omega
    have kept := le_nearestUnits Nat.one_pos (isShort_steps (Nat.le_refl _)) reached
    have bound := millionth_bounds.2
    have positive := halfStep_pos
    omega

/-- Whether a number is within a millionth of one, without any rounding. -/
def NearOne (x : Binary64) : Prop :=
  ∃ negative units, x = .finite negative units ∧ 1000000 * (signed negative units - one).natAbs < one

theorem millionth_lt_limit : millionth < limit := by
  have less : 18014398510 * halfStep < 2 ^ 54 * halfStep := Nat.mul_lt_mul_of_pos_right (by decide) halfStep_pos
  have far := whole_lt_limit (k := 1) (by decide)
  rw [Nat.one_mul, one_eq] at far
  exact Nat.lt_of_le_of_lt millionth_bounds.2 (Nat.lt_trans less far)

theorem ofDecimal_millionth : ofDecimal false ⟨1, -6⟩ = .finite false millionth := by
  have quotient : Decimal.quotient ⟨1, -6⟩ = (1, 1000000) := rfl
  unfold ofDecimal
  dsimp only
  rw [if_neg (by decide), if_neg (by decide), quotient, Nat.one_mul, round]
  exact if_pos millionth_lt_limit

theorem ofInt_one : ofInt 1 = .finite false one := by
  have read := ofInt_eq (v := 1) (by decide)
  rwa [Int.natAbs_one, Nat.one_mul] at read

theorem abs_lt_iff {x : Binary64} {bound : Nat} : Number.lt (.real x.abs) (.real (.finite false bound)) = true ↔
    ∃ negative units, x = .finite negative units ∧ units < bound := by
  cases x with
  | nan mark => exact iff_of_false (by rintro ⟨⟩) (by rintro ⟨_, _, ⟨⟩, -⟩)
  | infinite side =>
    rw [abs, Number.lt_iff_of_rank? rfl rfl]
    exact iff_of_false (by simp) (by rintro ⟨_, _, ⟨⟩, -⟩)
  | finite negative units =>
    rw [abs, Number.lt_iff_of_rank? rfl rfl]
    constructor
    · intro less
      exact ⟨negative, units, rfl, by simpa [signed] using less⟩
    · rintro ⟨_, _, ⟨⟩, less⟩
      simpa [signed] using less

theorem sub_one_lt_iff {bound : Nat} (within : bound ≤ limit) : (∃ side rest,
    sub (.finite negative units) (.finite false one) = .finite side rest ∧ rest < bound) ↔
      nearestUnits (signed negative units - one).natAbs 1 < bound := by
  have total : signed negative units + signed (!false) one = signed negative units - one := rfl
  rw [sub, neg, add, total]
  split
  · rename_i none
    have nothing : nearestUnits 0 1 = 0 := rfl
    rw [none, Int.natAbs_zero, nothing]
    constructor
    · rintro ⟨_, _, ⟨⟩, less⟩
      exact less
    · exact fun less => ⟨_, _, rfl, less⟩
  · rw [round]
    constructor
    · rintro ⟨side, rest, rounded, less⟩
      split at rounded <;> cases rounded
      exact less
    · intro less
      exact ⟨_, _, if_pos (Nat.lt_of_lt_of_le less within), less⟩

/-- The rounded comparison with a millionth is right about every double. -/
theorem lt_millionth_iff {x : Binary64} (double : x.IsDouble) :
    Number.lt (.real (x.sub (.ofInt 1)).abs) (.real (.ofDecimal false ⟨1, -6⟩)) = true ↔ x.NearOne := by
  rw [ofDecimal_millionth, ofInt_one, abs_lt_iff, NearOne]
  cases x with
  | nan | infinite => exact iff_of_false (by rintro ⟨_, _, ⟨⟩, -⟩) (by rintro ⟨_, _, ⟨⟩, -⟩)
  | finite negative units =>
    rw [sub_one_lt_iff (Nat.le_of_lt millionth_lt_limit), near_iff double.1]
    constructor
    · exact fun near => ⟨_, _, rfl, near⟩
    · rintro ⟨_, _, ⟨⟩, near⟩
      exact near

end Binary64

end Matchmaking
