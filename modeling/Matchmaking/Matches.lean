import Matchmaking.Value.Reading

/-! Decoded matches: a fixed row of tuples, one element for each named collection. -/
namespace Matchmaking

structure Matches where
  tuples : List (List Value)
  names : List Value
  deriving Inhabited

namespace Matches

def ofValues (tuples names : Value) : Except Failure Matches := do
  let read := (tuples :: tuples.items?.getD []).filterMap Value.mark?
  return ⟨← tuples.rows, ← (names.behind read).items⟩

def values (m : Matches) : List Value := m.tuples.map .tuple

def size (m : Matches) : Nat := m.tuples.length

/-- The place that an index means; a negative one counts from the end. -/
def placeOf (length : Nat) (index : Int) : Option Nat :=
  let place := if index < 0 then index + length else index
  if 0 ≤ place ∧ place < length then some place.toNat else none

def get (m : Matches) (index : Value) : Except Failure Value := do
  let index ← Value.orWrongKind index.index?
  match (placeOf m.size index).bind (m.values[·]?) with
  | some found => return found
  | none => .error .outOfRange

def bound (v : Value) : Except Failure (Option Int) :=
  match v with
  | .null => .ok none
  | v => do return some (← Value.orWrongKind v.index?)

def clamp (length : Nat) (least greatest index : Int) : Int :=
  let place := if index < 0 then index + length else index
  max least (min greatest place)

/-- The places of a stretch with a stride, which may run backwards. -/
def stretch (length : Nat) (start stop : Option Int) (stride : Int) : List Nat :=
  let first : Int := if 0 < stride then 0 else -1
  let last : Int := if 0 < stride then length else length - 1
  let start := (start.map (clamp length first last)).getD (if 0 < stride then first else last)
  let stop := (stop.map (clamp length first last)).getD (if 0 < stride then last else first)
  (List.range (Value.rangeLength start stop stride)).map fun (turn : Nat) =>
    (start + stride * turn).toNat

/-- The matches of a stretch given by its end, by both ends, or by both and a stride. -/
def slice (m : Matches) (ends : Value) : Except Failure Matches := do
  let (start, stop, stride) ← match ← ends.items with
    | [stop] => pure (.null, stop, .null)
    | [start, stop] => pure (start, stop, .null)
    | [start, stop, stride] => pure (start, stop, stride)
    | _ => .error .wrongKind
  let stride := (← bound stride).getD 1
  if stride = 0 then .error .zeroStride
  else
    let start ← bound start
    let stop ← bound stop
    return { m with tuples := (stretch m.size start stop stride).filterMap (m.tuples[·]?) }

def contains (m : Matches) (v : Value) : Bool := v.isAmong m.values

def count (m : Matches) (v : Value) : Nat := (m.values.filter (·.same v)).length

def before (stop : Option Number) (place : Number) : Bool :=
  match stop with
  | none => true
  | some stop => Number.lt place stop

/-- The first place, from a given one on and before an end, at which a value is found. -/
def seek (v : Value) (stop : Option Number) : Int → List Value → Except Failure Int
  | place, found :: rest =>
    if !before stop (.whole place) then .error .notFound
    else if found.same v then .ok place
    else seek v stop (place + 1) rest
  | _, [] => .error .notFound

/-- An end of a search as a number, a negative one counted from the end of the matches. -/
def fromEnd (m : Matches) (v : Value) : Except Failure (Bool × Number) := do
  let n ← v.number
  if Number.lt n (.whole 0) then
    match n.add? (.whole m.size) with
    | some moved => return (true, moved)
    | none => .error .tooLarge
  else return (false, n)

/-- Where a value is first found, between the ends of a span if it has any. A start before the
first match is the first match, and a search that its end has stopped needs no whole start. -/
def indexOf (m : Matches) (v start stop : Value) : Except Failure Value := do
  let (moved, first) ← m.fromEnd start
  let start := if !moved then start
    else if Number.lt first (.whole 0) then .int 0
    else .ofNumber first
  let stop ← match stop with
    | .null => pure none
    | stop => some <$> Prod.snd <$> m.fromEnd stop
  if !before stop (← start.number) then .error .notFound
  else
    let place ← Value.orWrongKind start.index?
    let found ← seek v stop place (m.values.drop place.toNat)
    return if found = place then start else .int found

/-- Whether the matches are the rows of a list or tuple, in order. -/
def equals (m : Matches) (v : Value) : Except Failure Bool :=
  match v with
  | .list _ | .tuple _ => do
    let rows ← v.rows
    return Value.sameAll m.values (rows.map .tuple)
  | _ => .ok false

def same (m other : Matches) : Bool := Value.sameAll m.values other.values

def toText (m : Matches) : Except Failure String := do
  return "ResultSet(" ++ (← Failure.quoted (.list m.values)) ++ ")"

def records (m : Matches) : Except Failure (List (Keyed Value)) :=
  m.tuples.mapM fun row => do
    return Keyed.ofPairs ((← (m.names.take row.length).mapM Value.asKey).zip row)

end Matches

end Matchmaking
