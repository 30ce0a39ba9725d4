import Matchmaking.Problem.Declared
import Matchmaking.Solver.Log

/-! Programs as models of a library for mixed-integer programs. What the library makes of the calls
is its own affair: here is which calls are made for a program, and in which order. -/
namespace Matchmaking

structure RealLibrary where
  Variable : Type
  Expression : Type
  Relation : Type
  Model : Type
  /-- A model without rows and without an objective. -/
  blank : Model
  /-- A variable that is zero or one, by its name. -/
  binary : Value → Except Failure Variable
  single : Variable → Expression
  /-- A variable times a weight. -/
  times : Value → Variable → Except Failure Expression
  sum : List Expression → Except Failure Expression
  relate : Operator → Expression → Value → Reading Relation
  minimize : Expression → Model → Except Failure Model
  minimizeNothing : Model → Model
  /-- A row and the name that it is to have. -/
  addRow : Relation → Value → Model → Except Failure Model
  isAvailable : String → Bool
  /-- What a solver of a name makes of a model within a time limit. -/
  run : String → Value → Model → Run Model
  status : Model → Int
  statusText? : Int → Option String
  value : Model → Variable → Value
  objective : Model → Except Failure Value

/-- A library that refuses every model. -/
instance : Inhabited RealLibrary where
  default := {
    Variable := Unit, Expression := Unit, Relation := Unit, Model := Unit, blank := (), single := id
    binary := fun _ => .error .modelRefused, times := fun _ _ => .error .modelRefused
    sum := fun _ => .error .modelRefused, relate := fun _ _ _ => throw .modelRefused
    minimize := fun _ _ => .error .modelRefused, minimizeNothing := id
    addRow := fun _ _ _ => .error .modelRefused, isAvailable := fun _ => false
    run := fun _ _ _ => throw .modelRefused, status := fun _ => 0, statusText? := fun _ => none
    value := fun _ _ => .null, objective := fun _ => .error .modelRefused }

namespace RealLibrary

variable (L : RealLibrary)

def minimizeSum (terms : List L.Expression) (model : L.Model) : Except Failure L.Model := do
  if terms.isEmpty then return L.minimizeNothing model
  else L.minimize (← L.sum terms) model

/-- A model with one more row, over the variables that are declared. -/
def addConstraint (declared : Lookup L.Variable) (model : L.Model) (c : Constraint) : Reading L.Model := do
  let members ← c.members declared
  let total ← L.sum (members.map L.single)
  let relation ← L.relate c.operator total c.target
  L.addRow relation c.name model

def build (p : Problem) : Reading (L.Model × Keyed L.Variable) := do
  let unknowns ← p.declare L.binary
  let declared := Lookup.of unknowns
  let terms ← (p.termsOver declared).mapM fun (weight, x) => L.times weight x
  let model ← L.minimizeSum terms L.blank
  return (← p.constraints.foldlM (L.addConstraint declared) model, unknowns)

end RealLibrary

end Matchmaking
