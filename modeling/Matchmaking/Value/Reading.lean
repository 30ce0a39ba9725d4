import Matchmaking.Failure
import Matchmaking.Value.Filing
import Matchmaking.Value.Turn

/-! Reading values as numbers, rows of items and places to look things up in, with the failure
that each kind of misuse causes. A range costs nothing until its numbers are listed, so it may
have far more of them than a list can have: listing them fails, walking through them fails at
the first that is refused, and looking a number up in it does not list anything. -/
namespace Matchmaking.Value

def orWrongKind (found : Option α) : Except Failure α :=
  match found with
  | some a => .ok a
  | none => .error .wrongKind

def counted (length : Nat) : Except Failure Nat :=
  if lengthLimit ≤ length then .error .tooLarge else .ok length

/-- The length of a value; what lists its items never has too many of them. -/
def length (v : Value) : Except Failure Nat :=
  match v with
  | .range start stop step => counted (rangeLength start stop step)
  | v => orWrongKind v.length?

/-- The items of a value, all at once. A range may have more of them than can be counted or than a
list has room for. -/
def items (v : Value) : Except Failure (List Value) :=
  match v with
  | .range start stop step => do
    if listLimit ≤ (← counted (rangeLength start stop step)) then .error .outOfMemory
    else return rangeItems start stop step
  | v => orWrongKind v.items?

/-- Reads the numbers of a range without listing them first. -/
def readNumbers (read : Value → Except Failure α) (step : Int) : Nat → Int → Except Failure (List α)
  | 0, _ => .ok []
  | length + 1, i => do return (← read (.int i)) :: (← readNumbers read step length (i + step))

/-- Reads the items of a value one after the other, up to the first that cannot be read. -/
def traverse (read : Value → Except Failure α) (v : Value) : Except Failure (List α) :=
  match v with
  | .range start stop step => readNumbers read step (rangeLength start stop step) start
  | v => do (← orWrongKind v.items?).mapM read

def foldNumbers (step : σ → Value → Except Failure σ) (stride : Int) : Nat → Int → σ → Except Failure σ
  | 0, _, state => .ok state
  | length + 1, i, state => do foldNumbers step stride length (i + stride) (← step state (.int i))

def fold (step : σ → Value → Except Failure σ) (start : σ) (v : Value) : Except Failure σ :=
  match v with
  | .range first stop stride => foldNumbers step stride (rangeLength first stop stride) first start
  | v => do (← orWrongKind v.items?).foldlM step start

def rows (v : Value) : Except Failure (List (List Value)) :=
  match v with
  | .range .. => v.traverse items
  | v => do (inTurn [] (← orWrongKind v.items?)).mapM items

theorem readNumbers_eq (read : Value → Except Failure α) (step : Int) (length : Nat) (start : Int) :
    readNumbers read step length start =
      ((List.range length).map fun (place : Nat) => Value.int (start + step * place)).mapM read := by
  induction length generalizing start with
  | zero => rfl
  | succ length ih =>
    have shifted (place : Nat) :
        start + step * ((place : Int) + 1) = start + step + step * place := by grind
    rw [readNumbers, ih, List.range_succ_eq_map, List.map_cons, List.mapM_cons, List.map_map]
    simp [Function.comp_def, shifted]

theorem traverse_eq (read : Value → Except Failure α) (v : Value) :
    v.traverse read = (do (← orWrongKind v.items?).mapM read) := by
  cases v with
  | range start stop step => exact readNumbers_eq read step _ start
  | _ => rfl

/-- A value as a key; lists and mappings are refused. -/
def asKey (v : Value) : Except Failure Value :=
  if v.isKey then .ok v else .error .wrongKind

def pairAt (place : Nat) (v : Value) : Except Failure (Value × Value) := do
  match ← v.items with
  | [key, datum] => return (← key.asKey, datum)
  | items => .error (.badPair place items.length)

/-- A mapping, or the one that is filed from a row of pairs; numbers are none. -/
def mapping (v : Value) : Except Failure (Keyed Value) :=
  match v with
  | .dict entries => .ok entries
  | .range start stop step =>
    if rangeLength start stop step = 0 then .ok [] else .error .wrongKind
  | v => do
    return Keyed.ofPairs (← (inTurn [] (← v.items)).zipIdx.mapM fun (item, place) => item.pairAt place)

/-- A value as a whole number: numbers lose their fraction, texts and bytes are numerals. -/
def readInt (v : Value) : Except Failure Int :=
  let numeral := fun (read : Except Numeral.Refusal Int) =>
    match read with
    | .ok i => Except.ok i
    | .error .malformed => .error (.notInteger v)
    | .error (.tooLong digits) => .error (.integerTooLong digits)
  match v with
  | .real (.nan _) => .error .integerFromNaN
  | .ratio value => .ok (value.num.tdiv value.den)
  | .real x => match x.truncate? with
    | some i => .ok i
    | none => .error .tooLarge
  | .bytes value => numeral (Numeral.readIntBytes value)
  | v => match v.text?, v.index? with
    | some s, _ => numeral (Numeral.readInt s)
    | none, some i => .ok i
    | none, none => .error .wrongKind

/-- A number as a double; a whole number beyond their range is too large. -/
def realOf (n : Number) : Except Failure Binary64 :=
  match n.toReal? with
  | some x => .ok x
  | none => .error .tooLarge

/-- A value as a double: numbers are rounded, texts and bytes are numerals. -/
def readReal (v : Value) : Except Failure Binary64 :=
  let numeral := fun (read : Option Binary64) =>
    match read with
    | some x => Except.ok x
    | none => .error (.notReal v)
  match v with
  | .bytes value => numeral (Numeral.readRealBytes? value)
  | v => match v.text?, v.number? with
    | some s, _ => numeral (Numeral.readReal? s)
    | none, some n => realOf n
    | none, none => .error .wrongKind

def number (v : Value) : Except Failure Number := orWrongKind v.number?

def add (a b : Value) : Except Failure Value := do
  match (← a.number).add? (← b.number) with
  | some sum => return ofNumber sum
  | none => .error .tooLarge

/-- The lesser of a value and a count; the value is kept unless the count is below it. -/
def atMost (v : Value) (count : Int) : Except Failure Value := do
  return if Number.lt (.whole count) (← v.number) then .int count else v

def isStretch [BEq α] (inner outer : List α) : Bool :=
  inner.isPrefixOf outer || match outer with
    | [] => false
    | _ :: rest => isStretch inner rest

def isInRange (start stop step : Int) (v : Value) : Bool :=
  let holds := fun (i : Int) =>
    (i - start) % step == 0 &&
      if 0 < step then start ≤ i && i < stop else stop < i && i ≤ start
  match v with
  | .real x => x.isInteger && (x.floor?.any holds)
  | .ratio value => value.den == 1 && holds value.num
  | v => v.index?.any holds

/-- Whether a value is in another that can be looked into: a stretch of a text or of bytes, a
number of bytes or of a range, an item or a key. A stream is handled by `sift`. -/
def within (v place : Value) : Except Failure Bool :=
  match place with
  | .bytes value =>
    match v, v.index? with
    | .bytes inner, _ => .ok (isStretch inner value)
    | _, some i =>
      if 0 ≤ i ∧ i < 256 then .ok (value.any fun b => b.toNat == i.toNat)
      else .error .byteOutOfRange
    | _, none => .error .wrongKind
  | .list items => .ok (v.isAmong items)
  | .tuple items => .ok (v.isAmong items)
  | .dict entries => do return (← v.asKey).isAmong (entries.map (·.1))
  | .range start stop step => .ok (isInRange start stop step v)
  | place =>
    match place.text? with
    | some outer => match v.text? with
      | some inner => .ok (isStretch inner.toList outer.toList)
      | none => .error .wrongKind
    | none => .error .wrongKind

/-- The values, in order, that are among items of a stream. Looking for one of them reads the
stream up to it or to its end. -/
def sieve (items : List Value) : List Value → List Value
  | [] => []
  | v :: rest =>
    match items.dropWhile fun item => !v.same item with
    | [] => sieve [] rest
    | _ :: left => v :: sieve left rest

/-- The values, in order, that are in a place. -/
def sift (place : Value) (values : List Value) : Except Failure (List Value) :=
  let among := fun (items : List Value) => values.filter (Roster.ofList items).has
  match place with
  | .stream _ items => .ok (sieve items values)
  | .list items => .ok (among items)
  | .tuple items => .ok (among items)
  | .dict entries => do
    let keys := Lookup.of entries
    values.filterM fun v => do return keys.has (← v.asKey)
  | place => values.filterM (·.within place)

end Matchmaking.Value
