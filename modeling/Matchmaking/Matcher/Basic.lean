import Matchmaking.Problem.Basic
import Matchmaking.Rule.Count
import Matchmaking.Rule.Marker
import Matchmaking.Rule.Weight
import Matchmaking.Space.View

/-! Matchers: a space of tuples with the rules configured for it. A configuration call works on
a matcher at its desk, that is together with the namer it draws row names from, and keeps what
it had changed when it fails. -/
namespace Matchmaking

/-- A weighted part of a space; once there are composers, only their tuples can be selected. -/
structure Composer where
  weight : Value
  view : View

structure Matcher where
  space : View
  constraints : List Constraint := []
  composers : List Composer := []
  /-- The count rule and the padding of each collection that has one. -/
  counts : Keyed (Count × Int) := []
  backend : Value := .null
  timeLimit : Value := .null

structure Desk where
  matcher : Matcher
  namer : Namer

abbrev Setup (α : Type) := ExceptT Failure (StateM Desk) α

namespace Matcher

/-- A matcher without rules. All collections are read before any is checked. -/
def build (collections : Keyed Value) (backend timeLimit : Value) : Except Failure Matcher := do
  let listed ← (collections.inTurn []).mapM fun (name, elements) => do
    return (name, .list (← elements.items))
  return { space := .whole (← Table.build listed), backend, timeLimit }

/-- The part of the space under a restriction, with the checked weight of its tuples. -/
def offer (restriction : Keyed Value) (weight : Value) : Setup Composer := do
  let weight ← Weight.check weight
  return ⟨weight, ← (← get).matcher.space.subset restriction⟩

/-- A composer counts from now on, unless there are no tuples in its view. -/
def enlist (composer : Composer) : Setup (Option Composer) := do
  if composer.view.isEmpty then return none
  else
    modify fun desk =>
      { desk with matcher.composers := desk.matcher.composers ++ [composer] }
    return some composer

/-- Lets the tuples of a restriction be selected, at the cost of a weight. -/
def addComposer (restriction : Keyed Value) (weight : Value) : Setup (Option Composer) := do
  enlist (← offer restriction weight)

def checkVariables (space : View) : List Value → Except Failure Unit
  | [] => .ok ()
  | v :: rest =>
    if space.contains v then checkVariables space rest else .error (.unknownVariable v)

/-- The row under a name that is its own from now on: its claimed name or, if it has none, the
next free one. -/
def nameRow (namer : Namer) (c : Constraint) : Except Failure (Constraint × Namer) :=
  if c.name.truth then do
    let (_, namer) ← namer.claim c.name
    return (c, namer)
  else
    let (name, namer) := namer.hand
    .ok ({ c with name := .text name }, namer)

def addRow (c : Constraint) : Setup Constraint := do
  let desk ← get
  checkVariables desk.matcher.space c.unknowns
  let (c, namer) ← nameRow desk.namer c
  set { desk with namer, matcher.constraints := desk.matcher.constraints ++ [c] }
  return c

def rowOf (view : View) (op : Operator) (target name : Value) : Constraint :=
  { unknowns := view.ids.map .text, operator := op, target, name }

def exclude (restriction : Keyed Value) (name : Value) : Setup (Option Constraint) := do
  let view ← (← get).matcher.space.subset restriction
  if view.isEmpty then return none
  else return some (← addRow (rowOf view .eq (.int 0) name))

def restrictionOf (bearers : Bearers) : Keyed Value :=
  bearers.map fun (collection, elements) => (collection, .list elements)

/-- Keeps elements that share a marker out of the same tuple. -/
def excludeMarkers (map : MarkerMap) : Setup (List Constraint) := do
  let added ← (← map.pairs).mapM fun pair => exclude (restrictionOf pair) .null
  return added.filterMap id

/-- Lets tuples be selected whose elements share a marker. -/
def includeMarkers (map : MarkerMap) (weight : Value) : Setup (List Composer) := do
  let added ← (← map.pairs).mapM fun pair => addComposer (restrictionOf pair) weight
  return added.filterMap id

/-- Sets how often every element of a collection is to be matched. The padding loosens the
lower bound for elements with few tuples. -/
def setCount (collection count padding : Value) : Setup Count := do
  let desk ← get
  if ← desk.matcher.space.table.hasName collection then
    let rule ← Count.read count
    let padding ← padding.readInt
    set { desk with matcher.counts := desk.matcher.counts.put collection (rule, padding) }
    return rule
  else throw (.noSuchCollection collection)

/-- One restriction for every choice from the axes that are streams. -/
def expand (restriction : Keyed Value) : List (Keyed Value) :=
  let restriction := restriction.inTurn []
  let streams := restriction.filter fun (_, value) => value.isStream
  if streams.isEmpty then [restriction]
  else
    (tuples (streams.map fun (_, value) => value.items?.getD [])).map fun row =>
      ((Keyed.keys streams).zip row).foldl
        (fun spec (name, element) => spec.put name (.list [element])) restriction

def partName (name : Value) (parts place : Nat) : Except Failure Value :=
  if name.truth && 1 < parts then do
    return .text ((← Failure.shown name) ++ "_" ++ Nat.repr place)
  else .ok name

/-- One row over the tuples of a restriction, if there are any; without a target all of them
are asked for. -/
def requirePart (op : Operator) (target name : Value) (parts : Nat)
    (part : Keyed Value × Nat) : Setup (Option Constraint) := do
  let view ← (← get).matcher.space.subset part.1
  if view.isEmpty then return none
  else
    let name ← partName name parts part.2
    let target ← match target with
      | .null => do pure (.int (← view.length))
      | target => pure target
    return some (← addRow (rowOf view op target name))

/-- Rows over the tuples of a restriction, one for each choice from its streams. -/
def require (op : Operator) (restriction : Keyed Value) (target name : Value) :
    Setup (List Constraint) := do
  let parts := expand restriction
  let added ← parts.zipIdx.mapM (requirePart op target name parts.length)
  return added.filterMap id

end Matcher

end Matchmaking
