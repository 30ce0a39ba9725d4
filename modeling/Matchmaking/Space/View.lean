import Matchmaking.Space.Axis
import Matchmaking.Space.Identifier
import Matchmaking.Space.Product
import Matchmaking.Space.Table

/-! Views of the space of tuples: for every collection of a table an axis of positions. The
tuples of a view are the choices of one position from each axis, and each is named by the
identifier of its positions, which is the same in every view. -/
namespace Matchmaking

inductive View.Origin where
  | whole
  | subset
  deriving DecidableEq, Repr

structure View where
  table : Table
  origin : View.Origin
  axes : Keyed Axis

namespace View

def Origin.label : Origin → String
  | .whole => "VariableSpace"
  | .subset => "SubsetView"

def names (view : View) : List Value := view.table.names

def whole (table : Table) : View :=
  ⟨table, .whole, table.collections.mapData fun collection => .full collection.size⟩

def positions (view : View) : List (List Int) := view.axes.map (·.2.positions)

def axis (view : View) (name : Value) : Except Failure Axis := do
  view.table.checkName name
  match view.axes.get? name with
  | some found => return found
  | none => .error .keyMissing

def elements (view : View) (name : Value) : Except Failure (List Value) := do
  (← view.axis name).positions.mapM (view.table.elementAt name)

def isEmpty (view : View) : Bool := view.axes.isEmpty || view.positions.any List.isEmpty

/-- The identifiers of the view's tuples, the last axis fastest. -/
def ids (view : View) : List String := (tuples view.positions).map Identifier.write

def size (view : View) : Nat :=
  if view.isEmpty then 0 else (view.positions.map List.length).foldl (· * ·) 1

def length (view : View) : Except Failure Nat := Value.counted view.size

def covers (view : View) (row : List Int) : Bool :=
  row.length == view.axes.length &&
    (view.axes.zip row).all fun ((_, axis), position) => axis.contains position

def contains (view : View) (identifier : Value) : Bool :=
  match Identifier.read identifier with
  | .ok row => view.covers row
  | .error _ => false

/-- The identifier of a tuple with one element of each collection. -/
def encode (view : View) (elements : Value) : Except Failure String := do
  let elements ← elements.items
  if elements.length ≠ view.axes.length then
    .error (.wrongArity view.names elements.length)
  else
    let row ← (view.axes.zip elements).mapM fun ((name, axis), element) => do
      let index : Int ← view.table.indexOf name element
      if axis.contains index then return index else .error (.outsideElement name element)
    return Identifier.write row

def decode (view : View) (identifier : Value) : Except Failure (List Value) := do
  let row ← Identifier.read identifier
  if row.length ≠ view.axes.length then
    .error (.wrongComponents identifier view.axes.length)
  else
    (view.axes.zip row).mapM fun ((name, axis), position) => do
      if axis.contains position then view.table.elementAt name position
      else .error (.outsideIdentifier identifier)

/-- The view of those tuples whose elements on the named axes are among the given ones. -/
def subset (view : View) (restriction : Keyed Value) : Except Failure View := do
  view.table.checkNames restriction.keys
  let axes ← view.axes.mapM fun (name, axis) => do
    match view.table.given restriction name with
    | none => return (name, axis)
    | some value => return (name, axis.narrow (← view.table.wanted name value))
  return ⟨view.table, .subset, axes⟩

def idsWith (view : View) (name element : Value) : Except Failure (List String) := do
  return (← view.subset [(name, .list [element])]).ids

def shapeOf (label : String) (sizes : Keyed Nat) : Except Failure String := do
  let parts ← sizes.mapM fun (name, size) => do return s!"{← Failure.shown name}[{size}]"
  let axes := String.intercalate " x " parts
  let shown := if axes.isEmpty then "empty" else axes
  return s!"<{label} {shown}>"

def shape (view : View) : Except Failure String :=
  shapeOf view.origin.label (view.axes.mapData Axis.size)

end View

end Matchmaking
