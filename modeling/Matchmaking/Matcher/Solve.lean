import Matchmaking.Matcher.Compose
import Matchmaking.Matches
import Matchmaking.Solver.Backend

/-! Solving a matcher's program and decoding what was selected, in the order of the program's
variables. A program without variables has no matches and is not handed to a solver. -/
namespace Matchmaking.Desk

/-- Identifiers in the order of others; those that are not among them come last. -/
def inOrder (ids : List String) (selected : List Value) : List Value :=
  let places := Lookup.of (ids.zipIdx.map fun (id, place) => (.text id, place))
  let placed := selected.map fun id => ((places.get? id).getD ids.length, id)
  (placed.mergeSort fun a b => a.1 ≤ b.1).map (·.2)

def solveProgram (desk : Desk) (active : List String) (p : Problem) (registry : Registry)
    (backend timeLimit : Value) (world : World) : Run Matches := do
  let m := desk.matcher
  if active.isEmpty then return ⟨[], m.space.names⟩
  else
    let backend := if backend.truth then backend else m.backend
    let timeLimit := match timeLimit with
      | .null => m.timeLimit
      | limit => limit
    let outcome ← registry.solve p backend timeLimit world
    let selected ← outcome.solution
    let decoded ←
      ((inOrder active selected).mapM m.space.decode : Except Failure (List (List Value)))
    return ⟨decoded, m.space.names⟩

def solve (desk : Desk) (registry : Registry) (backend timeLimit : Value) (world : World) :
    Run Matches := do
  let p ← desk.problem
  desk.solveProgram desk.matcher.active p registry backend timeLimit world

end Matchmaking.Desk
