import Matchmaking.Number.Shortest
import Matchmaking.Solver.Outcome
import Matchmaking.Solver.World

/-! Solving with a library for whole coefficients. The solver reports its objective in parts, which
are counted back into units of weight. -/
namespace Matchmaking

def scaledStatus (label : String) : Status := (Status.ofLabel? label).getD .unknown

/-- A reported objective in units of weight. -/
def unscale (objective : Value) : Except Failure Binary64 := do
  match ← objective.number with
  | .real x => return x.divNat weightScale
  | .whole i => Value.realOf (.ratio (mkRat i weightScale))
  | .ratio _ => .error .wrongKind

def limitOf (timeLimit : Value) : Except Failure Value := do
  match timeLimit with
  | .null => return .null
  | limit => return .real (← limit.readReal)

def ScaledLibrary.solve (L : ScaledLibrary) (p : Problem) (timeLimit : Value) (world : World) : Run Outcome := do
  let (model, unknowns) ← reading (L.build p)
  let report ← L.run (← limitOf timeLimit) model
  let status := scaledStatus report.status
  if status.ok then
    let selected ← unknowns.filterM fun (_, x) => do return (← report.value x).truth
    let objective ← unscale report.objective
    let message := s!"CP-SAT solution: status={report.status}, objective={objective.toFixed}"
    announce world message
    return {
      status, selected := .list (Keyed.keys selected), progress := [message], raw := .text report.status
      objective := .real objective }
  else
    let message := s!"CP-SAT solution: status={report.status}"
    announce world message
    return { status, selected := .list [], progress := [message], raw := .text report.status }

end Matchmaking
