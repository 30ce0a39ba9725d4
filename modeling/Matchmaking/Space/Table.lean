import Matchmaking.Value.Reading

/-! Named collections of elements. Every element has its place in its collection as its
position, fixed once for all; a collection lists no element twice. -/
namespace Matchmaking

structure Table where
  collections : Keyed Roster
  deriving Inhabited

namespace Table

def names (table : Table) : List Value := table.collections.keys

/-- Adds elements to a collection; those that cannot be told apart or are no keys are refused,
in their order. -/
def enroll (name : Value) (collection : Roster) : List Value → Except Failure Roster
  | [] => .ok collection
  | element :: rest => do
    if collection.has (← element.asKey) then .error (.repeatedElement name element)
    else enroll name (Roster.add collection element) rest

/-- The table of collections, each read and checked before the next. -/
def build (collections : Keyed Value) : Except Failure Table := do
  let listed ← (collections.inTurn []).mapM fun (name, elements) => do
    return (name, ← enroll name .empty (← elements.items))
  return ⟨listed⟩

def hasName (table : Table) (name : Value) : Except Failure Bool := do
  return table.collections.has (← name.asKey)

/-- The collection of a name, which the table has to have. -/
def collection (table : Table) (name : Value) : Except Failure Roster := do
  match table.collections.get? (← name.asKey) with
  | some found => return found
  | none => .error (.unknownCollection name table.names)

def elements (table : Table) (name : Value) : Except Failure (List Value) := do
  return (← table.collection name).keys

def checkName (table : Table) (name : Value) : Except Failure Unit := do
  let _ ← table.collection name

def size (table : Table) (name : Value) : Except Failure Nat := do
  return (← table.collection name).size

/-- The place of an element in a collection; what is no key is in none. -/
def place? (collection : Roster) (element : Value) : Option Nat :=
  if element.isKey then collection.place? element else none

/-- Whether an element is in a collection; what cannot be looked up is in none. -/
def hasElement (table : Table) (name element : Value) : Except Failure Bool :=
  match table.collection name with
  | .ok found => .ok (place? found element).isSome
  | .error failure =>
    match failure.settle with
    | .wrongKind => .ok false
    | other => .error other

def indexOf (table : Table) (name element : Value) : Except Failure Nat := do
  match place? (← table.collection name) element with
  | some place => return place
  | none => .error (.notAnElement name element)

def elementAt (table : Table) (name : Value) (index : Int) : Except Failure Value := do
  let collection ← table.collection name
  if 0 ≤ index then
    match collection.key? index.toNat with
    | some element => return element
    | none => .error (.noElementAt name (.int index))
  else .error (.noElementAt name (.int index))

/-- The element at a position of any kind of number; one with a point is no position even
where its value lies in range. -/
def elementAtValue (table : Table) (name index : Value) : Except Failure Value := do
  let collection ← table.collection name
  let position ← index.number
  if Number.le (.whole 0) position && Number.lt position (.whole collection.size) then
    match index.index? with
    | some place => table.elementAt name place
    | none => .error .wrongKind
  else .error (.noElementAt name index)

def checkNames (table : Table) : List Value → Except Failure Unit
  | [] => .ok ()
  | name :: rest => do
    table.checkName name
    table.checkNames rest

/-- The elements that a restriction of one axis means: a value that is an element itself, a
text, bytes and what cannot be walked through stand for themselves, anything else for its
items. -/
def meant (table : Table) (name value : Value) : Except Failure (List Value) := do
  if ← table.hasElement name value then return [value]
  else match value with
    | .bytes _ => return [value]
    | value => if value.isText || !value.isRow then return [value] else value.items

/-- The marks of the streams that a restriction has read for some collections. A stream that is
an element of its collection stands for itself there and is not read. -/
def readFor (restriction : Keyed Value) (collections : Keyed Roster) : List Nat :=
  collections.filterMap fun (name, collection) => do
    let v ← restriction.get? name
    if (place? collection v).isSome then none else v.mark?

/-- What a restriction gives for a collection, where it has been read for those before. -/
def given (table : Table) (restriction : Keyed Value) (name : Value) : Option Value :=
  let before := table.collections.takeWhile fun (other, _) => !other.same name
  (restriction.get? name).map (·.behind (readFor restriction before))

/-- The positions of the elements that a restriction of one axis means. -/
def wanted (table : Table) (name value : Value) : Except Failure (List Int) := do
  (← table.meant name value).mapM fun element => do return (← table.indexOf name element : Nat)

end Table

end Matchmaking
