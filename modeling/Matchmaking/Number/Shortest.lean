import Matchmaking.Number.Binary64

/-! The shortest decimal that reads back as a given double, and how it is laid out. Of the
decimals with the fewest digits inside the double's rounding cell the nearest is taken, the one
with an even last digit on a tie. Numbers from a ten-thousandth up to `10 ^ 16` are written
positionally and always show a fraction; all others show an exponent of two digits or more. -/
namespace Matchmaking

/-- The number `digits * 10 ^ exponent`. -/
structure Decimal where
  digits : Nat
  exponent : Int
  deriving DecidableEq, Repr

/-- The magnitudes that round to one double, in quarters of a unit; its ends belong to it
exactly when the significand is even. -/
structure Cell where
  low : Nat
  high : Nat
  closed : Bool

namespace Binary64

def cell (units : Nat) : Cell :=
  let step := Nat.pow 2 (lastPlace units)
  let below := if units = step * Nat.pow 2 52 ∧ 1 < step then step else 2 * step
  ⟨4 * units - below, 4 * units + 2 * step, units / step % 2 = 0⟩

end Binary64

/-- Whether the magnitude `num / den` lies in the cell. -/
def Cell.holds (cell : Cell) (num den : Nat) : Bool :=
  let scaled := num * (4 * Binary64.one)
  if cell.closed then cell.low * den ≤ scaled && scaled ≤ cell.high * den
  else cell.low * den < scaled && scaled < cell.high * den

namespace Decimal

def quotient (d : Decimal) : Nat × Nat :=
  if 0 ≤ d.exponent then (d.digits * Nat.pow 10 d.exponent.toNat, 1)
  else (d.digits, Nat.pow 10 (-d.exponent).toNat)

/-- The exponent of the leading decimal digit of a positive magnitude in units. The shift by
330 places makes every positive double at least one. -/
def leading (units : Nat) : Int :=
  ((Nat.toDigits 10 (units * Nat.pow 10 330 / Binary64.one)).length : Int) - 331

/-- The better neighbour of a positive magnitude on the grid of multiples of `10 ^ exponent`,
if one of the two lies in the magnitude's cell. -/
def onGrid? (units : Nat) (exponent : Int) : Option Decimal :=
  let num := if exponent < 0 then units * Nat.pow 10 (-exponent).toNat else units
  let den := if exponent < 0 then Binary64.one else Binary64.one * Nat.pow 10 exponent.toNat
  let lower : Decimal := ⟨num / den, exponent⟩
  let upper : Decimal := ⟨num / den + 1, exponent⟩
  let cell := Binary64.cell units
  let fits := fun d : Decimal => cell.holds d.quotient.1 d.quotient.2
  match fits lower, fits upper with
  | true, true => some ⟨nearestEven num den, exponent⟩
  | true, false => some lower
  | false, true => some upper
  | false, false => none

/-- The shortest decimal of a positive magnitude; seventeen digits always suffice. -/
def shortest (units : Nat) : Decimal :=
  let top := leading units
  ((List.range 17).findSome? fun (more : Nat) => onGrid? units (top - more)).getD ⟨units, -1074⟩

end Decimal

namespace Binary64

def zeros (count : Nat) : List Char := List.replicate count '0'

/-- Significant digits without trailing zeros, and the place of the point counted from their
front. -/
def significant (d : Decimal) : List Char × Int :=
  let all := Nat.toDigits 10 d.digits
  ((all.reverse.dropWhile (· == '0')).reverse, all.length + d.exponent)

def exponentText (exponent : Int) : List Char :=
  let digits := Nat.toDigits 10 exponent.natAbs
  (if exponent < 0 then '-' else '+') :: zeros (2 - digits.length) ++ digits

def positional (digits : List Char) (point : Int) : List Char :=
  if point ≤ 0 then '0' :: '.' :: zeros (-point).toNat ++ digits
  else
    let fraction := digits.drop point.toNat
    digits.take point.toNat ++ zeros (point.toNat - digits.length) ++
      '.' :: (if fraction.isEmpty then ['0'] else fraction)

def scientific (digits : List Char) (point : Int) : List Char :=
  digits.take 1 ++ (if 1 < digits.length then '.' :: digits.drop 1 else []) ++
    'e' :: exponentText (point - 1)

def magnitude (units : Nat) : List Char :=
  if units = 0 then ['0', '.', '0']
  else
    let (digits, point) := significant (Decimal.shortest units)
    if -4 < point ∧ point ≤ 16 then positional digits point else scientific digits point

def withSign (negative : Bool) (text : List Char) : String :=
  String.ofList (if negative then '-' :: text else text)

def toText : Binary64 → String
  | .nan _ => "nan"
  | .infinite negative => if negative then "-inf" else "inf"
  | .finite negative units => withSign negative (magnitude units)

def toFixed : Binary64 → String
  | .finite negative units =>
    let digits := Nat.toDigits 10 (nearestEven (units * 100) one)
    let padded := zeros (3 - digits.length) ++ digits
    withSign negative (padded.take (padded.length - 2) ++ '.' :: padded.drop (padded.length - 2))
  | other => other.toText

/-- The double nearest to a decimal. Decimals far outside the range of doubles are told by
their leading digit alone. -/
def ofDecimal (negative : Bool) (d : Decimal) : Binary64 :=
  let top := (Nat.toDigits 10 d.digits).length + d.exponent
  if d.digits = 0 ∨ top < -330 then .finite negative 0
  else if 310 < top then .infinite negative
  else
    let (num, den) := d.quotient
    round negative (num * one) den

end Binary64

end Matchmaking
