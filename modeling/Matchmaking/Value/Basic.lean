import Matchmaking.Constraint.Operator
import Matchmaking.Number.Basic

/-! The data that callers bring: elements, markers, weights, targets, counts and names, of
whatever kind, with the views under which rules look at them. A truth value also is the number
zero or one and an operator also is the text of its symbol. A stream can be read once; it and
`nan` are told from others of their kind by a mark. -/
namespace Matchmaking

inductive Value where
  | null
  | bool (value : Bool)
  | int (value : Int)
  | ratio (value : Rat)
  | real (value : Binary64)
  | text (value : String)
  | bytes (value : List UInt8)
  | list (items : List Value)
  | tuple (items : List Value)
  | dict (entries : List (Value × Value))
  | range (start stop step : Int)
  | stream (mark : Nat) (items : List Value)
  | exactly (count : Value)
  | between (minimum maximum : Value)
  | operator (value : Operator)
  deriving Inhabited

namespace Value

def number? : Value → Option Number
  | .bool value => some (.whole value.toInt)
  | .int value => some (.whole value)
  | .ratio value => some (.ratio value)
  | .real value => some (.real value)
  | _ => none

def ofNumber : Number → Value
  | .whole value => .int value
  | .ratio value => .ratio value
  | .real value => .real value

def text? : Value → Option String
  | .text value => some value
  | .operator value => some value.symbol
  | _ => none

def isText (v : Value) : Bool := v.text?.isSome

/-- A whole number that is not a truth value. -/
def whole? : Value → Option Int
  | .int value => some value
  | _ => none

/-- A whole number, a truth value being zero or one. -/
def index? : Value → Option Int
  | .bool value => some value.toInt
  | .int value => some value
  | _ => none

def isNaN : Value → Bool
  | .real (.nan _) => true
  | _ => false

def rangeLength (start stop step : Int) : Nat :=
  if 0 < step then ((stop - start + step - 1) / step).toNat
  else if step < 0 then ((start - stop - step - 1) / -step).toNat
  else 0

/-- A length that no counter holds. -/
def lengthLimit : Nat := Nat.pow 2 63

/-- A number of items that no list has room for. -/
def listLimit : Nat := Nat.pow 2 60

def rangeItems (start stop step : Int) : List Value :=
  (List.range (rangeLength start stop step)).map fun (place : Nat) => .int (start + step * place)

/-- What can be counted has a length; a stream cannot. -/
def length? : Value → Option Nat
  | .text value => some value.length
  | .operator value => some value.symbol.length
  | .bytes value => some value.length
  | .list items => some items.length
  | .tuple items => some items.length
  | .dict entries => some entries.length
  | .range start stop step => some (rangeLength start stop step)
  | _ => none

/-- Whether a value counts as true: neither missing, nor zero, nor empty. -/
def truth : Value → Bool
  | .null => false
  | .bool value => value
  | .int value => value != 0
  | .ratio value => value != 0
  | .real (.finite _ units) => units != 0
  | v => v.length? != some 0

def textItems (s : String) : List Value :=
  s.toList.map fun c => .text (String.singleton c)

/-- The items of what can be walked through: characters of a text, numbers of bytes and of a
range, keys of a mapping. -/
def items? : Value → Option (List Value)
  | .text value => some (textItems value)
  | .operator value => some (textItems value.symbol)
  | .bytes value => some (value.map fun b => .int b.toNat)
  | .list items => some items
  | .tuple items => some items
  | .dict entries => some (entries.map (·.1))
  | .range start stop step => some (rangeItems start stop step)
  | .stream _ items => some items
  | _ => none

def isStream : Value → Bool
  | .stream .. => true
  | _ => false

def isRow : Value → Bool
  | .text _ | .operator _ | .bytes _ | .list _ | .tuple _ | .dict _ | .range .. | .stream .. => true
  | _ => false

end Value

end Matchmaking
