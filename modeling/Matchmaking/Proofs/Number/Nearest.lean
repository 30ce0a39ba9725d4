import Mathlib.Algebra.Group.Nat.Defs
import Mathlib.Tactic.ByContra
import Matchmaking.Number.Basic

/-! Rounding to doubles keeps what a double can hold and never jumps over it: a magnitude that fits
into a significand of 53 bits stays on its side of every exact result. Whole numbers up to `2 ^ 53`
are such magnitudes, so sums and products of whole numbers stay exact as long as they are that
small, and a double that a small whole number stands below stays above it when it is rounded. -/
namespace Matchmaking

variable {num den : Nat}

theorem le_nearestEven {k : Nat} (positive : 0 < den) (below : k * den ≤ num) : k ≤ nearestEven num den := by
  by_contra less
  have next : (nearestEven num den + 1) * den ≤ k * den := Nat.mul_le_mul_right den (Nat.not_le.mp less)
  have near := (nearestEven_within num positive).1
  rw [Nat.succ_mul] at next
  omega

theorem nearestEven_le {k : Nat} (positive : 0 < den) (above : num ≤ k * den) : nearestEven num den ≤ k := by
  by_contra more
  have next : (k + 1) * den ≤ nearestEven num den * den := Nat.mul_le_mul_right den (Nat.not_le.mp more)
  have near := (nearestEven_within num positive).2
  rw [Nat.succ_mul] at next
  omega

namespace Binary64

/-- A magnitude, in units, that fits into a significand. -/
def IsShort (units : Nat) : Prop := 2 ^ lastPlace units ∣ units

instance (units : Nat) : Decidable (IsShort units) := inferInstanceAs (Decidable (_ ∣ _))

/-- A number that a double holds. -/
def IsDouble : Binary64 → Prop
  | .finite _ units => IsShort units ∧ units < limit
  | _ => True

theorem lastPlace_mono {m n : Nat} (bound : m ≤ n) : lastPlace m ≤ lastPlace n := by
  rcases Nat.eq_zero_or_pos m with rfl | positive
  · simp [lastPlace]
  have reached : 2 ^ m.log2 ≤ n := Nat.le_trans (Nat.log2_self_le (Nat.ne_of_gt positive)) bound
  have digits : m.log2 ≤ n.log2 := (Nat.le_log2 (Nat.ne_of_gt (Nat.lt_of_lt_of_le positive bound))).mpr reached
  unfold lastPlace
  omega

/-- Between magnitudes with last places of different size lies a power of two. -/
theorem between_of_lastPlace_lt {m n : Nat} (less : lastPlace m < lastPlace n) :
    m ≤ 2 ^ n.log2 ∧ 2 ^ n.log2 ≤ n ∧ lastPlace n ≤ n.log2 := by
  unfold lastPlace at *
  have some : n ≠ 0 := by
    rintro rfl
    simp at less
  have within : m < 2 ^ n.log2 :=
    Nat.lt_of_lt_of_le Nat.lt_log2_self (Nat.pow_le_pow_right (by decide) (by omega))
  exact ⟨Nat.le_of_lt within, Nat.log2_self_le some, by omega⟩

theorem le_nearestUnits_of_dvd {m : Nat} (positive : 0 < den) (whole : 2 ^ lastPlace (num / den) ∣ m)
    (below : m * den ≤ num) : m ≤ nearestUnits num den := by
  obtain ⟨k, rfl⟩ := whole
  rw [nearestUnits, Nat.mul_comm]
  refine Nat.mul_le_mul_right _ (le_nearestEven (Nat.mul_pos positive (Nat.two_pow_pos _)) ?_)
  exact le_of_eq_of_le (by simp only [Nat.pow_eq]; ac_rfl) below

theorem nearestUnits_le_of_dvd {m : Nat} (positive : 0 < den) (whole : 2 ^ lastPlace (num / den) ∣ m)
    (above : num ≤ m * den) : nearestUnits num den ≤ m := by
  obtain ⟨k, rfl⟩ := whole
  rw [nearestUnits, Nat.mul_comm _ k]
  refine Nat.mul_le_mul_right _ (nearestEven_le (Nat.mul_pos positive (Nat.two_pow_pos _)) ?_)
  exact le_of_le_of_eq above (by simp only [Nat.pow_eq]; ac_rfl)

/-- What a double can hold is not jumped over from above. -/
theorem le_nearestUnits {m : Nat} (positive : 0 < den) (short : IsShort m) (below : m * den ≤ num) :
    m ≤ nearestUnits num den := by
  rcases Nat.lt_or_ge (lastPlace m) (lastPlace (num / den)) with coarser | finer
  · obtain ⟨bound, reached, place⟩ := between_of_lastPlace_lt coarser
    have power : 2 ^ (num / den).log2 * den ≤ num := (Nat.le_div_iff_mul_le positive).mp reached
    exact Nat.le_trans bound (le_nearestUnits_of_dvd positive (Nat.pow_dvd_pow 2 place) power)
  · exact le_nearestUnits_of_dvd positive (Nat.dvd_trans (Nat.pow_dvd_pow 2 finer) short) below

theorem nearestUnits_le {m : Nat} (positive : 0 < den) (short : IsShort m) (above : num ≤ m * den) :
    nearestUnits num den ≤ m := by
  have finer : lastPlace (num / den) ≤ lastPlace m := lastPlace_mono (Nat.div_le_of_le_mul (Nat.mul_comm m den ▸ above))
  exact nearestUnits_le_of_dvd positive (Nat.dvd_trans (Nat.pow_dvd_pow 2 finer) short) above

theorem nearestUnits_mul {m : Nat} (positive : 0 < den) (short : IsShort m) : nearestUnits (m * den) den = m :=
  Nat.le_antisymm (nearestUnits_le positive short (Nat.le_refl _)) (le_nearestUnits positive short (Nat.le_refl _))

theorem isShort_mul_two_pow {m : Nat} (small : m ≤ 2 ^ 53) (place : Nat) : IsShort (m * 2 ^ place) := by
  rcases Nat.eq_zero_or_pos m with rfl | positive
  · simp [IsShort]
  rcases Nat.lt_or_eq_of_le small with less | rfl
  · have size : (m * 2 ^ place).log2 < 53 + place := by
      rw [Nat.log2_lt (Nat.ne_of_gt (Nat.mul_pos positive (Nat.two_pow_pos _))), Nat.pow_add]
      exact Nat.mul_lt_mul_of_pos_right less (Nat.two_pow_pos _)
    exact Nat.dvd_trans (Nat.pow_dvd_pow 2 (by unfold lastPlace; omega)) (Nat.dvd_mul_left ..)
  · rw [IsShort, ← Nat.pow_add]
    refine Nat.pow_dvd_pow 2 ?_
    rw [lastPlace, Nat.log2_two_pow]
    omega

end Binary64

end Matchmaking
