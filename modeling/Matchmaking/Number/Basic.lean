import Matchmaking.Number.Binary64

/-! Numbers of three kinds, whole, rational and double, that mix freely. Comparison is exact
across the kinds. Arithmetic without doubles is exact, and rational as soon as one of the
numbers is; with a double it happens in doubles, so it fails on a number beyond their range. -/
namespace Matchmaking

inductive Number where
  | whole (value : Int)
  | ratio (value : Rat)
  | real (value : Binary64)
  deriving DecidableEq, Repr, Inhabited

namespace Number

def toReal? : Number → Option Binary64
  | .whole value =>
    let nearest := Binary64.ofInt value
    if nearest.isFinite then some nearest else none
  | .ratio value =>
    let nearest := Binary64.ofRat value
    if nearest.isFinite then some nearest else none
  | .real value => some value

/-- Where a number stands in the order, in units of doubles. -/
def rank? : Number → Option (Int × Rat)
  | .whole value => some (0, (value * Binary64.one : Int))
  | .ratio value => some (0, value * (Binary64.one : Int))
  | .real value => value.rank?.map fun (level, units) => (level, units)

/-- What a finite number is exactly. -/
def worth? : Number → Option Rat
  | .whole value => some value
  | .ratio value => some value
  | .real (.finite negative units) => some ((Binary64.signed negative units : Rat) / (Binary64.one : Int))
  | .real _ => none

/-- How two numbers stand to each other; nothing compares with `nan`. -/
def compare? : Number → Number → Option Ordering
  | .whole m, .whole n => some (compare m n)
  | x, y =>
    match x.rank?, y.rank? with
    | some (a, m), some (b, n) => some ((compare a b).then (compareOfLessAndEq m n))
    | _, _ => none

def lt (x y : Number) : Bool := compare? x y == some .lt
def le (x y : Number) : Bool := compare? x y == some .lt || compare? x y == some .eq
def eq (x y : Number) : Bool := compare? x y == some .eq

def add? : Number → Number → Option Number
  | .whole m, .whole n => some (.whole (m + n))
  | .whole m, .ratio q => some (.ratio (m + q))
  | .ratio p, .whole n => some (.ratio (p + n))
  | .ratio p, .ratio q => some (.ratio (p + q))
  | x, y => do return .real ((← x.toReal?).add (← y.toReal?))

def mul? : Number → Number → Option Number
  | .whole m, .whole n => some (.whole (m * n))
  | .whole m, .ratio q => some (.ratio (m * q))
  | .ratio p, .whole n => some (.ratio (p * n))
  | .ratio p, .ratio q => some (.ratio (p * q))
  | x, y => do return .real ((← x.toReal?).mul (← y.toReal?))

def abs : Number → Number
  | .whole value => .whole value.natAbs
  | .ratio value => .ratio value.abs
  | .real value => .real value.abs

def neg : Number → Number
  | .whole value => .whole (-value)
  | .ratio value => .ratio (-value)
  | .real value => .real value.neg

def floor? : Number → Option Int
  | .whole value => some value
  | .ratio value => some value.floor
  | .real value => value.floor?

def isFinite : Number → Bool
  | .whole _ => true
  | .ratio _ => true
  | .real value => value.isFinite

theorem one_pos : (0 : Rat) < (Binary64.one : Int) :=
  Rat.intCast_pos.mpr (Int.natCast_pos.mpr Binary64.one_pos)

theorem mul_one_le_mul_one {p q : Rat} :
    p * (Binary64.one : Int) ≤ q * (Binary64.one : Int) ↔ p ≤ q :=
  ⟨fun le => Rat.le_of_mul_le_mul_right le one_pos,
    fun le => Rat.mul_le_mul_of_nonneg_right le (Rat.le_of_lt one_pos)⟩

theorem mul_one_inj {p q : Rat} : p * (Binary64.one : Int) = q * (Binary64.one : Int) ↔ p = q :=
  ⟨fun same => Rat.le_antisymm (mul_one_le_mul_one.mp (same ▸ Rat.le_refl))
    (mul_one_le_mul_one.mp (same ▸ Rat.le_refl)), fun same => by rw [same]⟩

variable {x y : Number} {level : Int} {count : Rat}

/-- A whole number is up to the whole part of a number just if it is up to the number. -/
theorem exists_floor? (stands : x.rank? = some (0, count)) : ∃ whole, x.floor? = some whole ∧
    ∀ z : Int, z ≤ whole ↔ ((z * Binary64.one : Int) : Rat) ≤ count := by
  have positive : (0 : Int) < Binary64.one := Int.natCast_pos.mpr Binary64.one_pos
  cases x with
  | whole value =>
    cases stands
    exact ⟨value, rfl, fun z => by rw [Rat.intCast_le_intCast, Int.mul_le_mul_right positive]⟩
  | ratio value =>
    cases stands
    refine ⟨value.floor, rfl, fun z => ?_⟩
    rw [Rat.le_floor_iff, Rat.intCast_mul, mul_one_le_mul_one]
  | real value =>
    cases value with
    | nan => cases stands
    | infinite negative => cases negative <;> cases stands
    | finite negative units =>
      cases stands
      exact ⟨_, rfl, fun z => by rw [Rat.intCast_le_intCast, Int.le_ediv_iff_mul_le positive]⟩

theorem floor?_eq_none (stands : x.rank? = some (level, count)) (outer : level ≠ 0) :
    x.floor? = none := by
  cases x with
  | whole => cases stands; exact absurd rfl outer
  | ratio => cases stands; exact absurd rfl outer
  | real value =>
    cases value with
    | finite => cases stands; exact absurd rfl outer
    | _ => rfl

theorem floor?_eq_of_rank? (left : x.rank? = some (level, count))
    (right : y.rank? = some (level, count)) : x.floor? = y.floor? := by
  by_cases middle : level = 0
  · subst middle
    obtain ⟨m, first, below⟩ := exists_floor? left
    obtain ⟨n, second, under⟩ := exists_floor? right
    have same : m = n := Int.le_antisymm ((under m).mpr ((below m).mp (Int.le_refl m)))
      ((below n).mpr ((under n).mp (Int.le_refl n)))
    rw [first, second, same]
  · rw [floor?_eq_none left middle, floor?_eq_none right middle]

theorem floor?_eq_of_eq (h : x.eq y = true) : x.floor? = y.floor? := by
  unfold eq compare? at h
  split at h
  · simp only [beq_iff_eq, Option.some.injEq, Int.compare_eq_eq] at h
    rw [h]
  · split at h
    · rename_i a m b n left right
      obtain ⟨levels, counts⟩ := Ordering.then_eq_eq.mp (Option.some.inj (eq_of_beq h))
      have equal := (compareOfLessAndEq_eq_eq (fun _ => Rat.le_refl) Rat.not_le).mp counts
      rw [Int.compare_eq_eq.mp levels, equal] at left
      exact floor?_eq_of_rank? left right
    · cases h

end Number

end Matchmaking
