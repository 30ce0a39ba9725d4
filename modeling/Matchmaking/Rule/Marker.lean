import Matchmaking.Value.Reading

/-! Markers on elements. A marker map gives each element of some collections one marker or
several; regrouped by marker, it says which elements of which collections carry it. -/
namespace Matchmaking

/-- For each collection its elements, each with a marker or a row of markers. -/
abbrev MarkerMap := Keyed (Keyed Value)

/-- For each collection the elements that carry one marker. -/
abbrev Bearers := Keyed (List Value)

namespace MarkerMap

/-- The markers meant by a value: a text or bytes are one marker. -/
def markers (v : Value) : Except Failure (List Value) :=
  match v with
  | .bytes _ => .ok [v]
  | v => if v.isText || !v.isRow then .ok [v] else v.traverse .ok

/-- The markers as a reader of one element after the other finds them. -/
def inTurn (read : List Nat) : MarkerMap → MarkerMap
  | [] => []
  | (collection, elements) :: rest =>
    (collection, Keyed.inTurn read elements) :: inTurn (Keyed.marks elements ++ read) rest

/-- The markings in order: each marker with the collection and the element that it is on. -/
def markings (map : MarkerMap) : Except Failure (List (Value × Value × Value)) := do
  let rows ← (map.inTurn []).mapM fun (collection, elements) =>
    elements.mapM fun (element, marks) => do
      return (← (← markers marks).mapM Value.asKey).map (·, collection, element)
  return rows.flatten.flatten

/-- The map regrouped by marker, markers, collections and elements in the order in which they
come, each element once. -/
def byMarker (map : MarkerMap) : Except Failure (Keyed Bearers) := do
  return (Keyed.group (← map.markings)).mapData fun marked =>
    (Keyed.group marked).mapData Value.distinct

def laterPairs : List α → List (α × α)
  | [] => []
  | item :: rest => rest.map (item, ·) ++ laterPairs rest

/-- For every marker the pairs of collections that carry it, as restrictions of a space. -/
def pairs (map : MarkerMap) : Except Failure (List Bearers) := do
  return (← map.byMarker).flatMap fun (_, bearers) =>
    (laterPairs bearers).map fun (outer, inner) => [outer, inner]

end MarkerMap

end Matchmaking
