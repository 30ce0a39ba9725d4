import Matchmaking.Proofs.Number.Order

/-! How far a double is from what it was rounded from. Unless a result lies below all numbers with full significands,
rounding moves it by one part in `2 ^ 53` at most. Whole counts of thousandths lie so far from each other that a
thousand times the double nearest to one of them still is nearest to that count. -/
namespace Matchmaking

attribute [local irreducible] Binary64.one Binary64.limit

variable {num den k : Nat}

theorem nearestEven_eq (below : 2 * (k * den) < 2 * num + den) (above : 2 * num < 2 * (k * den) + den) :
    nearestEven num den = k := by
  obtain ⟨low, high⟩ := nearestEven_within num (show 0 < den by omega)
  rcases Nat.lt_trichotomy (nearestEven num den) k with less | equal | more
  · have next : (nearestEven num den + 1) * den ≤ k * den := Nat.mul_le_mul_right den less
    rw [Nat.succ_mul] at next
    omega
  · exact equal
  · have next : (k + 1) * den ≤ nearestEven num den * den := Nat.mul_le_mul_right den more
    rw [Nat.succ_mul] at next
    omega

namespace Binary64

variable {negative : Bool}

theorem round_of_lt (within : nearestUnits num den < limit) :
    round negative num den = .finite negative (nearestUnits num den) := by
  rw [round]
  exact if_pos within

theorem round_of_not_lt (large : ¬nearestUnits num den < limit) : round negative num den = .infinite negative := by
  rw [round]
  exact if_neg large

theorem lastPlace_le {units : Nat} (full : 2 ^ 52 ≤ units) : 2 ^ lastPlace units * 2 ^ 52 ≤ units := by
  have some : units ≠ 0 := by
    rintro rfl
    omega
  have digits : 52 ≤ units.log2 := (Nat.le_log2 some).mpr full
  have place : lastPlace units + 52 = units.log2 := by
    unfold lastPlace
    omega
  rw [← Nat.pow_add, place]
  exact Nat.log2_self_le some

/-- A result is moved by one part in `2 ^ 53` at most, unless it is a fraction without a full significand. -/
theorem nearestUnits_within (positive : 0 < den) (full : den ∣ num ∨ 2 ^ 52 * den ≤ num) :
    2 ^ 53 * num ≤ 2 ^ 53 * (nearestUnits num den * den) + num ∧
      2 ^ 53 * (nearestUnits num den * den) ≤ 2 ^ 53 * num + num := by
  by_cases large : 2 ^ 52 ≤ num / den
  · have place := lastPlace_le large
    have step : 0 < 2 ^ lastPlace (num / den) := Nat.two_pow_pos _
    obtain ⟨low, high⟩ := nearestEven_within num (Nat.mul_pos positive step)
    have moved : den * 2 ^ lastPlace (num / den) * 2 ^ 52 ≤ num := by
      have scaled : 2 ^ lastPlace (num / den) * 2 ^ 52 * den ≤ num := (Nat.le_div_iff_mul_le positive).mp place
      exact Nat.le_trans (Nat.le_of_eq (by ac_rfl)) scaled
    have units : nearestUnits num den * den =
        nearestEven num (den * 2 ^ lastPlace (num / den)) * (den * 2 ^ lastPlace (num / den)) := by
      simp only [nearestUnits, Nat.pow_eq]
      ac_rfl
    rw [units]
    generalize nearestEven num _ * _ = near at *
    generalize den * 2 ^ lastPlace (num / den) = gap at *
    omega
  · rcases full with ⟨m, rfl⟩ | full
    · rw [Nat.mul_div_cancel_left m positive] at large
      have short : IsShort m := by
        have kept := isShort_mul_two_pow (m := m) (by omega) 0
        rwa [Nat.pow_zero, Nat.mul_one] at kept
      rw [Nat.mul_comm den m, nearestUnits_mul positive short]
      omega
    · exact absurd ((Nat.le_div_iff_mul_le positive).mpr full) large

theorem nearestUnits_whole (positive : 0 < den) (m : Nat) :
    2 ^ 53 * m ≤ 2 ^ 53 * nearestUnits (m * den) den + m ∧ 2 ^ 53 * nearestUnits (m * den) den ≤ 2 ^ 53 * m + m := by
  obtain ⟨low, high⟩ := nearestUnits_within positive (.inl (Nat.dvd_mul_left den m))
  simp only [← Nat.mul_assoc, ← Nat.add_mul] at low high
  exact ⟨Nat.le_of_mul_le_mul_right low positive, Nat.le_of_mul_le_mul_right high positive⟩

theorem far_one : 2 ^ 52 * 1000 ≤ one := by
  have power : ∃ place, one = Nat.pow 2 place ∧ 62 ≤ place := ⟨1074, by unfold one; rfl, by decide⟩
  obtain ⟨place, power, far⟩ := power
  rw [power]
  exact Nat.le_trans (show 2 ^ 52 * 1000 ≤ 2 ^ 62 by decide) (Nat.pow_le_pow_right (by decide) far)

theorem nearestUnits_thousandths (k : Nat) :
    2 ^ 53 * (k * one) ≤ 2 ^ 53 * (nearestUnits (k * one) 1000 * 1000) + k * one ∧
      2 ^ 53 * (nearestUnits (k * one) 1000 * 1000) ≤ 2 ^ 53 * (k * one) + k * one := by
  refine nearestUnits_within (by decide) ?_
  rcases Nat.eq_zero_or_pos k with rfl | some
  · rw [Nat.zero_mul]
    exact .inl (Nat.dvd_zero _)
  · exact .inr (Nat.le_trans far_one (Nat.le_mul_of_pos_left one some))

theorem nearestUnits_thousand_times (k : Nat) (small : k ≤ 2 ^ 50) :
    nearestUnits (nearestUnits (k * one) 1000 * 1000 * one) one < limit ∧
      nearestEven (nearestUnits (nearestUnits (k * one) 1000 * 1000 * one) one) one = k := by
  obtain ⟨low, high⟩ := nearestUnits_thousandths k
  have next : (k + 1) * one = k * one + one := Nat.succ_mul ..
  have bound : k * one ≤ 2 ^ 50 * one := Nat.mul_le_mul_right one small
  have positive := one_pos
  constructor
  · have above : nearestUnits (k * one) 1000 * 1000 ≤ (k + 1) * one := by omega
    refine Nat.lt_of_le_of_lt (nearestUnits_le one_pos (isShort_whole ?_) ?_) (whole_lt_limit (k := k + 1) ?_)
    · omega
    · exact Nat.mul_le_mul_right one above
    · omega
  · obtain ⟨low', high'⟩ := nearestUnits_whole one_pos (nearestUnits (k * one) 1000 * 1000)
    generalize nearestUnits (nearestUnits (k * one) 1000 * 1000 * one) one = product at *
    generalize nearestUnits (k * one) 1000 = units at *
    apply nearestEven_eq <;> omega

end Binary64

end Matchmaking
