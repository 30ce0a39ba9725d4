import Matchmaking.Number.Rounding

/-! Double-precision numbers with exact arithmetic behind every operation: the exact result is
formed first and then rounded once, to the nearest double, ties to the even significand. A
finite number is a whole count of the smallest positive double, `2 ^ -1074`, so exact results
are integers or quotients of integers in that unit. `nan` carries a mark that tells one datum
from another; no operation reads it. -/
namespace Matchmaking

inductive Binary64 where
  | nan (mark : Nat)
  | infinite (negative : Bool)
  | finite (negative : Bool) (units : Nat)
  deriving DecidableEq, Repr, Inhabited

namespace Binary64

def one : Nat := Nat.pow 2 1074

theorem one_pos : 0 < one := by decide +kernel

/-- The first magnitude, in units, that no finite double reaches. -/
def limit : Nat := Nat.pow 2 1024 * one

/-- The binary exponent, in units, of the last place of a significand of 53 bits. -/
def lastPlace (units : Nat) : Nat := units.log2 + 1 - 53

/-- The exact magnitude `num / den`, in units, rounded to 53 significant bits. -/
def nearestUnits (num den : Nat) : Nat :=
  let step := Nat.pow 2 (lastPlace (num / den))
  nearestEven num (den * step) * step

/-- The double nearest to the exact magnitude `num / den`, in units. -/
def round (negative : Bool) (num den : Nat) : Binary64 :=
  let units := nearestUnits num den
  if units < limit then .finite negative units else .infinite negative

def signed (negative : Bool) (units : Nat) : Int :=
  if negative then -(units : Int) else units

def zero : Binary64 := .finite false 0

/-- The nearest double to a whole number, infinite beyond the range. -/
def ofInt (value : Int) : Binary64 := round (value < 0) (value.natAbs * one) 1

/-- The nearest double to a quotient, infinite beyond the range. -/
def ofRat (value : Rat) : Binary64 := round (value.num < 0) (value.num.natAbs * one) value.den

def isNaN : Binary64 → Bool
  | .nan _ => true
  | _ => false

def isFinite : Binary64 → Bool
  | .finite .. => true
  | _ => false

def neg : Binary64 → Binary64
  | .nan mark => .nan mark
  | .infinite negative => .infinite !negative
  | .finite negative units => .finite (!negative) units

def abs : Binary64 → Binary64
  | .nan mark => .nan mark
  | .infinite _ => .infinite false
  | .finite _ units => .finite false units

def add : Binary64 → Binary64 → Binary64
  | .finite s m, .finite t n =>
    let total := signed s m + signed t n
    if total = 0 then .finite (s && t) 0 else round (total < 0) total.natAbs 1
  | .infinite s, .infinite t => if s = t then .infinite s else .nan 0
  | .infinite s, .finite .. => .infinite s
  | .finite .., .infinite t => .infinite t
  | _, _ => .nan 0

def sub (x y : Binary64) : Binary64 := x.add y.neg

def mul : Binary64 → Binary64 → Binary64
  | .finite s m, .finite t n => round (s != t) (m * n) one
  | .infinite s, .infinite t => .infinite (s != t)
  | .infinite s, .finite t n => if n = 0 then .nan 0 else .infinite (s != t)
  | .finite s m, .infinite t => if m = 0 then .nan 0 else .infinite (s != t)
  | _, _ => .nan 0

def divNat (x : Binary64) (divisor : Nat) : Binary64 :=
  match x with
  | .finite negative units => round negative units divisor
  | other => other

/-- Where a number stands in the order, infinities outermost; `nan` stands nowhere. -/
def rank? : Binary64 → Option (Int × Int)
  | .nan _ => none
  | .infinite negative => some (if negative then -1 else 1, 0)
  | .finite negative units => some (0, signed negative units)

def isInteger : Binary64 → Bool
  | .finite _ units => units % one == 0
  | _ => false

def floor? : Binary64 → Option Int
  | .finite negative units => some (signed negative units / one)
  | _ => none

def ceil? : Binary64 → Option Int
  | .finite negative units => some (-(-(signed negative units) / one))
  | _ => none

def truncate? : Binary64 → Option Int
  | .finite negative units => some (signed negative (units / one))
  | _ => none

/-- A finite number rounded to a whole one, a half going to the even neighbour. -/
def nearestInt? : Binary64 → Option Int
  | .finite negative units => some (signed negative (nearestEven units one))
  | _ => none

end Binary64

end Matchmaking
