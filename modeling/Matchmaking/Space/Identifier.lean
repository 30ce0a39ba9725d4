import Matchmaking.Value.Reading

/-! Identifiers of variables: the letter `v` and the positions of a tuple in decimal, an `x`
between two of them. Reading accepts leading zeros and digits of any script. -/
namespace Matchmaking.Identifier

def joinPieces (separator : Char) : List (List Char) → List Char
  | [] => []
  | [piece] => piece
  | piece :: rest => piece ++ separator :: joinPieces separator rest

/-- The pieces of a text between the separators; there always is at least one. -/
def pieces (separator : Char) : List Char → List (List Char)
  | [] => [[]]
  | c :: rest =>
    if c = separator then [] :: pieces separator rest
    else match pieces separator rest with
      | [] => [[c]]
      | first :: others => (c :: first) :: others

def numeral (position : Int) : List Char :=
  let digits := Nat.toDigits 10 position.natAbs
  if position < 0 then '-' :: digits else digits

def write (positions : List Int) : String :=
  String.ofList ('v' :: joinPieces 'x' (positions.map numeral))

/-- The pieces of an identifier behind its first letter, each a row of digits. -/
def parts? (s : List Char) : Option (List (List Char)) :=
  match s with
  | 'v' :: rest =>
    let found := pieces 'x' rest
    if found.all fun piece => !piece.isEmpty && piece.all Text.isDigit then some found else none
  | _ => none

def hasForm (s : String) : Bool := (parts? s.toList).isSome

def position (piece : List Char) : Except Failure Int :=
  if Numeral.digitLimit < piece.length then .error (.integerTooLong piece.length)
  else .ok (Text.digitsValue piece)

def read (identifier : Value) : Except Failure (List Int) :=
  match identifier.text?.bind fun s => parts? s.toList with
  | some found => found.mapM position
  | none => .error (.malformedIdentifier identifier)

/-- The identifier for positions given in any form that reads as whole numbers. -/
def ofValues (indices : Value) : Except Failure String := do
  let parts ← indices.traverse fun index => do Failure.whole (← index.readInt)
  return String.ofList ('v' :: joinPieces 'x' (parts.map String.toList))

end Matchmaking.Identifier
