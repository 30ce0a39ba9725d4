import Matchmaking.Solver.Real
import Matchmaking.Solver.Scaled
import Matchmaking.Solver.Shell

/-! Backends by name. A registration files a provider under its name in small letters; the
name that is preferred stands for a solver executable, and while that is not installed another
one takes its place. -/
namespace Matchmaking

/-- What stands behind a name: one of the solvers, something that solves nothing, or nothing
that can be found. -/
inductive Provider where
  | shell
  | real
  | scaled
  | inert (label : String)
  | missing (label : String)
  deriving DecidableEq, Repr, Inhabited

abbrev Registry := Keyed Provider

namespace Registry

def preferred : Value := .text "lp_solve"
def fallback : Value := .text "pulp"

def standard : Registry :=
  [(preferred, .shell), (fallback, .real), (.text "ortools", .scaled)]

def lowerByte (b : UInt8) : UInt8 := if 0x41 ≤ b && b ≤ 0x5a then b + 0x20 else b

/-- A name in small letters; only texts and bytes have letters. -/
def lowered (name : Value) : Except Failure Value :=
  match name with
  | .bytes value => .ok (.bytes (value.map lowerByte))
  | name => match name.text? with
    | some s => .ok (.text (String.ofList (Text.lowercase s.toList)))
    | none => .error .noAttribute

def register (registry : Registry) (name : Value) (provider : Provider) :
    Except Failure Registry := do
  return registry.put (← lowered name) provider

/-- The registered names in ascending order; they have to be texts. -/
def available (registry : Registry) : Except Failure (List Value) :=
  match registry.keys.mapM Value.text? with
  | some names => .ok ((names.mergeSort fun a b => a ≤ b).map .text)
  | none => .error .wrongKind

/-- The preferred name if its executable is installed, otherwise the fallback. -/
def default (registry : Registry) (world : World) : Except Failure Value :=
  match registry.get? preferred with
  | some .shell => do
    if ← Shell.isAvailable .null world then return preferred else return fallback
  | some (.missing _) => .error .providerMissing
  | _ => .error .noAttribute

def chosen (registry : Registry) (name : Value) (world : World) : Except Failure Value :=
  if name.truth then .ok name else registry.default world

def find (registry : Registry) (name : Value) (world : World) : Except Failure Provider := do
  let key ← lowered (← registry.chosen name world)
  match registry.get? key with
  | none => .error (.unknownBackend name (← registry.available))
  | some (.missing _) => .error .providerMissing
  | some provider => return provider

def solve (registry : Registry) (p : Problem) (name timeLimit : Value) (world : World) :
    Run Outcome := do
  match ← registry.find name world with
  | .shell => Shell.solve p timeLimit .null world
  | .real => world.real.solve p timeLimit world
  | .scaled => world.scaled.solve p timeLimit world
  | _ => throw (.backendInert (← registry.chosen name world))

end Registry

def Outcome.solution (outcome : Outcome) : Except Failure (List Value) :=
  if outcome.status.ok then outcome.selected.items else .error (.infeasible outcome)

end Matchmaking
