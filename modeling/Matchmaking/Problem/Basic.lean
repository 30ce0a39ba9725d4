import Matchmaking.Constraint.Basic
import Matchmaking.Value.Stream

/-! A program over variables that are zero or one: rows to satisfy and a weighted sum to make
as small as can be. As text it has the objective, the rows, a bound for every variable and the
list of variables that are whole. -/
namespace Matchmaking

structure Problem where
  /-- The identifiers that may be selected, in a fixed order. -/
  unknowns : Value
  /-- The weight of each identifier; weights of zero are kept but not written. -/
  objective : Keyed Value
  constraints : List Constraint
  deriving Inhabited

namespace Problem

/-- The identifiers whose weight is not zero. -/
def terms (p : Problem) : Keyed Value :=
  p.objective.filter fun (_, weight) => !weight.equal (.int 0)

def termText (id weight : Value) : Except Failure String := do
  let n ← weight.number
  let sign := if Number.le (.whole 0) n then "+" else "-"
  return sign ++ (← amount (.ofNumber n.abs)) ++ " " ++ (← Failure.shown id)

def rowLines (p : Problem) : Except Failure (List String) := do
  let terms ← p.terms.mapM fun (id, weight) => termText id weight
  let rows ← p.constraints.mapM Constraint.toLine
  return ["/* Objective function */", "min: " ++ String.intercalate " " terms ++ ";", "",
    "/* Constraints */"] ++ rows

def boundLine (id : Value) : Except Failure String := do return (← Failure.shown id) ++ " <= 1;"

def wholeLine (ids : List String) : String := "int " ++ String.intercalate "," ids ++ ";"

/-- The lines of the program text. The variables are walked through twice, and their
identifiers have to be texts the second time. -/
def textLines (p : Problem) : Reading (List String) := do
  let rows ← p.rowLines
  let bounds ← Streams.walk boundLine p.unknowns
  if p.unknowns.truth then
    let ids ← Streams.walk (fun id => Value.orWrongKind id.text?) p.unknowns
    return rows ++ bounds ++ ["", wholeLine ids]
  else return rows ++ bounds

def toText (p : Problem) : Reading String := do
  return String.intercalate "\n" (← p.textLines) ++ "\n"

def size (p : Problem) : Except Failure Nat := p.unknowns.length

end Problem

end Matchmaking
