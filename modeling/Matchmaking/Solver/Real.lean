import Matchmaking.Number.Shortest
import Matchmaking.Solver.Outcome
import Matchmaking.Solver.World

/-! Solving with a library for mixed-integer programs, by the first available of the preferred
solvers. A variable is selected when its value is above one half. -/
namespace Matchmaking

def realSolvers : List String := ["HiGHS_CMD", "HiGHS", "PULP_CBC_CMD"]

/-- The status that a word of the library stands for. -/
def realStatus (text : String) : Status :=
  match text with
  | "Optimal" => .optimal
  | "Feasible" | "Integer Feasible" => .feasible
  | "Infeasible" => .infeasible
  | "Unbounded" => .invalid
  | _ => .unknown

def half : Binary64 := .ofDecimal false ⟨5, -1⟩

def isChosen (value : Value) : Except Failure Bool :=
  match value with
  | .null => .ok false
  | value => do return Number.lt (.real half) (.real (← value.readReal))

/-- A number with two places; a fraction is not written so. -/
def fixed (v : Value) : Except Failure String := do
  match ← v.number with
  | .ratio _ => .error .wrongKind
  | n => return (← Value.realOf n).toFixed

namespace RealLibrary

variable (L : RealLibrary)

def solver : Except Failure String :=
  match realSolvers.find? L.isAvailable with
  | some solver => .ok solver
  | none => .error .noModelSolver

/-- The objective of a solved model; a missing one counts as zero. -/
def reported (model : L.Model) : Except Failure Value := do
  match ← L.objective model with
  | .null => return .real .zero
  | objective => return objective

def solve (p : Problem) (timeLimit : Value) (world : World) : Run Outcome := do
  let (model, unknowns) ← reading (L.build p)
  let model ← L.run (← L.solver) timeLimit model
  let label := (L.statusText? (L.status model)).getD "Undefined"
  let status := realStatus label
  if status.ok then
    let selected ← unknowns.filterM fun (_, x) => isChosen (L.value model x)
    let objective ← L.reported model
    let message := s!"PuLP solution: status={label}, objective={← fixed objective}"
    announce world message
    return {
      status, selected := .list (Keyed.keys selected), progress := [message], raw := .text label, objective }
  else
    let message := s!"PuLP solution: status={label}"
    announce world message
    return { status, selected := .list [], progress := [message], raw := .text label }

end RealLibrary

end Matchmaking
