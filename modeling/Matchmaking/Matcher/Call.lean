import Matchmaking.Matcher.Basic

/-! Configuration calls as data. Each call answers or fails; either way the matcher and its namer
are left as the call left them. A stream in a call holds what is left of it when the call is made. -/
namespace Matchmaking

/-- Where a row comes from: the caller's own row, a row of the matcher offered again, or the
parts of a row, those given last counting. -/
inductive RowSource where
  | made (row : Constraint)
  | again (place : Int)
  | parts (first last : Keyed Value)

inductive Call where
  | addComposer (restriction : Keyed Value) (weight : Value)
  | addRow (source : RowSource)
  | exclude (restriction : Keyed Value) (name : Value)
  | excludeMarkers (map : MarkerMap)
  | includeMarkers (map : MarkerMap) (weight : Value)
  | setCount (collection count padding : Value)
  | require (op : Operator) (restriction : Keyed Value) (target name : Value)

inductive Answer where
  | composer (added : Option Composer)
  | composers (added : List Composer)
  | row (added : Option Constraint)
  | rows (added : List Constraint)
  | count (rule : Count)

namespace Call

def rowFrom (m : Matcher) : RowSource → Except Failure Constraint
  | .made row => .ok row
  | .again place =>
    let place := if place < 0 then place + m.constraints.length else place
    if 0 ≤ place then
      match m.constraints[place.toNat]? with
      | some row => .ok row
      | none => .error .outOfRange
    else .error .outOfRange
  | .parts first last =>
    Constraint.ofSpec (last.foldl (fun spec part => Keyed.put spec part.1 part.2) first)

def run : Call → Setup Answer
  | .addComposer restriction weight => return .composer (← Matcher.addComposer restriction weight)
  | .addRow source => do
    let row ← rowFrom (← get).matcher source
    return .row (some (← Matcher.addRow row))
  | .exclude restriction name => return .row (← Matcher.exclude restriction name)
  | .excludeMarkers map => return .rows (← Matcher.excludeMarkers map)
  | .includeMarkers map weight => return .composers (← Matcher.includeMarkers map weight)
  | .setCount collection count padding =>
    return .count (← Matcher.setCount collection count padding)
  | .require op restriction target name =>
    return .rows (← Matcher.require op restriction target name)

end Call

end Matchmaking
