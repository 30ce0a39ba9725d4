/-! Rounding a quotient of naturals to a whole number, a half going to the even neighbour.
The two laws say that the result is within half a unit and that a whole quotient is kept. -/
namespace Matchmaking

def nearestEven (num den : Nat) : Nat :=
  let quotient := num / den
  let twice := 2 * (num % den)
  if twice < den then quotient
  else if den < twice then quotient + 1
  else if quotient % 2 = 0 then quotient
  else quotient + 1

theorem nearestEven_within (num : Nat) (positive : 0 < den) :
    2 * num ≤ 2 * (nearestEven num den * den) + den ∧
      2 * (nearestEven num den * den) ≤ 2 * num + den := by
  have split := Nat.div_add_mod num den
  have small := Nat.mod_lt num positive
  rw [Nat.mul_comm] at split
  unfold nearestEven
  generalize num / den = quotient at *
  generalize num % den = rest at *
  have next : (quotient + 1) * den = quotient * den + den := Nat.succ_mul ..
  dsimp only
  repeat' split
  all_goals omega

@[simp] theorem nearestEven_mul (whole : Nat) (positive : 0 < den) :
    nearestEven (whole * den) den = whole := by
  simp [nearestEven, Nat.mul_div_cancel _ positive, positive]

end Matchmaking
