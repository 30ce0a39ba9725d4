import Matchmaking.Number.Shortest
import Matchmaking.Text.Blank
import Matchmaking.Text.Digit

/-! Reading numerals. Digits of any script count, single underscores may stand between digits,
and blanks around the numeral are ignored. Whole numbers of more than 4300 digits are refused,
in reading and in writing. -/
namespace Matchmaking.Numeral

/-- The longest whole number, in digits, that is read or written. -/
def digitLimit : Nat := 4300

inductive Refusal where
  | malformed
  | tooLong (digits : Nat)
  deriving DecidableEq, Repr

/-- A character as numerals see it: digits and blanks of any script become plain ones, and
what belongs in no numeral becomes a question mark. -/
def plain (c : Char) : Char :=
  if c.toNat < 127 then c
  else if Text.isBlank c then ' '
  else match Text.digitValue? c with
    | some value => Nat.digitChar value
    | none => '?'

/-- The digits that a text starts with and what comes after them. Single underscores may stand
between digits and are left out; there has to be a digit, and none of them may be at an end. -/
def leadingDigits? (s : List Char) : Option (List Char × List Char) :=
  go false s
where
  /-- The flag tells whether a digit has just been read. -/
  go : Bool → List Char → Option (List Char × List Char)
    | after, [] => if after then some ([], []) else none
    | after, c :: rest =>
      if c = '_' then if after then go false rest else none
      else if c.isDigit then (go true rest).map fun (digits, left) => (c :: digits, left)
      else if after then some ([], c :: rest)
      else none

/-- A leading sign, as whether it is a minus, and what follows it. -/
def splitSign : List Char → Bool × List Char
  | '-' :: rest => (true, rest)
  | '+' :: rest => (false, rest)
  | s => (false, s)

/-- The number of digits is looked at before what follows them. -/
def readPlainInt (s : List Char) : Except Refusal Int :=
  let (negative, body) := splitSign (s.dropWhile Text.isNumeralBlank)
  match leadingDigits? body with
  | none => .error .malformed
  | some (digits, left) =>
    if digitLimit < digits.length then .error (.tooLong digits.length)
    else if left.all Text.isNumeralBlank then
      let value : Int := Nat.ofDigitChars 10 digits 0
      .ok (if negative then -value else value)
    else .error .malformed

def readInt (s : String) : Except Refusal Int := readPlainInt (s.toList.map plain)

/-- Bytes are read as plain characters; none beyond them belongs in a numeral. -/
def readIntBytes (bytes : List UInt8) : Except Refusal Int :=
  readPlainInt (bytes.map fun b => if b.toNat < 127 then Char.ofNat b.toNat else '?')

/-- The text without its underscores, each of which must stand between two digits. -/
def dropUnderscores? (s : List Char) : Option (List Char) :=
  go ' ' s
where
  go (before : Char) : List Char → Option (List Char)
    | [] => if before = '_' then none else some []
    | '_' :: rest => if before.isDigit then go '_' rest else none
    | c :: rest => if before = '_' ∧ !c.isDigit then none else (go c rest).map (c :: ·)

def readExponent? : List Char → Option Int
  | [] => some 0
  | c :: rest =>
    if c = 'e' ∨ c = 'E' then
      let (negative, digits) := splitSign rest
      if digits.isEmpty || !digits.all Char.isDigit then none
      else
        let value : Int := Nat.ofDigitChars 10 digits 0
        some (if negative then -value else value)
    else none

def readDecimal? (s : List Char) : Option Decimal := do
  let whole := s.takeWhile Char.isDigit
  let rest := s.dropWhile Char.isDigit
  let (fraction, rest) :=
    match rest with
    | '.' :: after => (after.takeWhile Char.isDigit, after.dropWhile Char.isDigit)
    | _ => ([], rest)
  if whole.isEmpty && fraction.isEmpty then none
  else
    let exponent ← readExponent? rest
    return ⟨Nat.ofDigitChars 10 (whole ++ fraction) 0, exponent - fraction.length⟩

def readPlainReal? (s : List Char) : Option Binary64 := do
  let (negative, body) := splitSign (← dropUnderscores? (Text.trim Text.isNumeralBlank s))
  let word := String.ofList (body.map Char.toLower)
  if word = "nan" then return .nan 0
  else if word = "inf" ∨ word = "infinity" then return .infinite negative
  else return .ofDecimal negative (← readDecimal? body)

def readReal? (s : String) : Option Binary64 := readPlainReal? (s.toList.map plain)

def readRealBytes? (bytes : List UInt8) : Option Binary64 :=
  readPlainReal? (bytes.map fun b => if b.toNat < 127 then Char.ofNat b.toNat else '?')

def writeInt? (value : Int) : Option String :=
  let digits := Nat.toDigits 10 value.natAbs
  if digitLimit < digits.length then none
  else some (String.ofList (if value < 0 then '-' :: digits else digits))

end Matchmaking.Numeral
