import Matchmaking.Space.View

/-! Views with axes of the caller's making. An axis may hold any values that can be keys; what
is no position of its collection only shows when it is used as one. -/
namespace Matchmaking

structure RawView where
  table : Table
  /-- Whether the axes come from a restriction of another view. -/
  isSubset : Bool := false
  axes : Keyed (List Value)

namespace RawView

/-- A view with the given axes; every collection needs one, and others are left out. All axes
are read before any position is looked at. -/
def make (table : Table) (axes : Keyed Value) : Except Failure RawView := do
  let given := table.names.filterMap fun name => (axes.get? name).map (name, ·)
  let read ← table.names.mapM fun name => do
    match (Keyed.inTurn [] given).get? name with
    | none => .error .keyMissing
    | some axis => return (name, ← axis.items)
  let checked ← read.mapM fun (name, axis) => do return (name, ← axis.mapM Value.asKey)
  return { table, axes := checked }

def axis (view : RawView) (name : Value) : Except Failure (List Value) := do
  view.table.checkName name
  match view.axes.get? name with
  | some found => return found
  | none => .error .keyMissing

def elements (view : RawView) (name : Value) : Except Failure (List Value) := do
  (← view.axis name).mapM (view.table.elementAtValue name)

def positions (view : RawView) : List (List Value) := view.axes.map (·.2)

def isEmpty (view : RawView) : Bool := view.axes.isEmpty || view.positions.any List.isEmpty

/-- The identifiers of the view's tuples; positions have to read as whole numbers. -/
def ids (view : RawView) : Except Failure (List String) :=
  (tuples view.positions).mapM fun row => Identifier.ofValues (.list row)

def size (view : RawView) : Nat :=
  if view.isEmpty then 0 else (view.positions.map List.length).foldl (· * ·) 1

/-- The number of the view's tuples, if a counter holds it. -/
def length (view : RawView) : Except Failure Nat := Value.counted view.size

def isOn (axis : List Value) (position : Int) : Bool := (Value.int position).isAmong axis

def covers (view : RawView) (row : List Int) : Bool :=
  row.length == view.axes.length &&
    (view.positions.zip row).all fun (axis, position) => isOn axis position

/-- Whether a value is an identifier of positions on the axes. -/
def contains (view : RawView) (identifier : Value) : Bool :=
  match Identifier.read identifier with
  | .ok row => view.covers row
  | .error _ => false

def encode (view : RawView) (elements : Value) : Except Failure String := do
  let elements ← elements.items
  if elements.length ≠ view.axes.length then
    .error (.wrongArity view.table.names elements.length)
  else
    let row ← (view.axes.zip elements).mapM fun ((name, axis), element) => do
      let index : Int ← view.table.indexOf name element
      if isOn axis index then return index else .error (.outsideElement name element)
    return Identifier.write row

def decode (view : RawView) (identifier : Value) : Except Failure (List Value) := do
  let row ← Identifier.read identifier
  if row.length ≠ view.axes.length then
    .error (.wrongComponents identifier view.axes.length)
  else
    (view.axes.zip row).mapM fun ((name, axis), position) => do
      if isOn axis position then view.table.elementAt name position
      else .error (.outsideIdentifier identifier)

/-- What two rows have in common, each once, as it stands in the shorter of them; of rows of
one length the second counts as shorter. -/
def common (first second : List Value) : List Value :=
  let first := Roster.ofList first
  let second := Roster.ofList second
  if second.size ≤ first.size then second.keys.filter first.has
  else first.keys.filter second.has

def ascending (row : List Value) : List Value :=
  row.mergeSort fun a b => Number.le (a.number?.getD default) (b.number?.getD default)

/-- The view of those tuples whose elements on the named axes are among the given ones. -/
def subset (view : RawView) (restriction : Keyed Value) : Except Failure RawView := do
  view.table.checkNames restriction.keys
  let axes ← view.axes.mapM fun (name, axis) => do
    match view.table.given restriction name with
    | none => return (name, axis)
    | some value =>
      let wanted ← view.table.wanted name value
      return (name, ascending (common (wanted.map .int) axis))
  return { view with isSubset := true, axes }

def idsWith (view : RawView) (name element : Value) : Except Failure (List String) := do
  (← view.subset [(name, .list [element])]).ids

def shape (view : RawView) : Except Failure String :=
  View.shapeOf (if view.isSubset then View.Origin.subset.label else "BaseVariableSpace")
    (view.axes.mapData List.length)

end RawView

end Matchmaking
