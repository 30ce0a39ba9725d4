import Matchmaking.Problem.Declared
import Matchmaking.Solver.Log

/-! Programs as models of a library that takes whole coefficients only. Weights are counted in
thousandths, rounded to the nearest whole number, a half to the even one; targets are rounded to
the side on which the row stays as strict as it was. A row without variables is a truth value, and
an equality with a fractional target is a row that nothing satisfies. -/
namespace Matchmaking

/-- What a solver tells of a model with variables of a kind. -/
structure Report (Variable : Type) where
  status : String
  value : Variable → Except Failure Value
  objective : Value

structure ScaledLibrary where
  Variable : Type
  Expression : Type
  Relation : Type
  Model : Type
  /-- A model without variables, rows and an objective. -/
  blank : Model
  /-- One more variable that is zero or one, by its name. -/
  newBool : Value → Model → Except Failure (Variable × Model)
  single : Variable → Expression
  /-- A variable times a coefficient. -/
  times : Int → Variable → Except Failure Expression
  /-- The sum of some expressions, of which there is at least one. -/
  sum : List Expression → Expression
  relate : Operator → Expression → Int → Except Failure Relation
  addRow : Relation → Model → Except Failure Model
  /-- A row that is a truth value. -/
  addTruth : Bool → Model → Model
  /-- A row that asks for one of some variables. -/
  addAny : List Variable → Model → Model
  /-- Names the row that was added last. -/
  nameLast : Value → Model → Except Failure Model
  minimize : Expression → Model → Except Failure Model
  /-- What the solver tells of a model within a time limit. -/
  run : Value → Model → Run (Report Variable)

/-- A library that refuses every model. -/
instance : Inhabited ScaledLibrary where
  default := {
    Variable := Unit, Expression := Unit, Relation := Unit, Model := Unit, blank := (), single := id
    newBool := fun _ _ => .error .modelRefused, times := fun _ _ => .error .modelRefused
    sum := fun _ => (), relate := fun _ _ _ => .error .modelRefused
    addRow := fun _ _ => .error .modelRefused, addTruth := fun _ => id, addAny := fun _ => id
    nameLast := fun _ _ => .error .modelRefused, minimize := fun _ _ => .error .modelRefused
    run := fun _ _ => throw .modelRefused }

/-- How many parts a unit of weight has. -/
def weightScale : Nat := 1000

def wholeOf (rounded : Option Int) (x : Binary64) : Except Failure Int :=
  match rounded with
  | some i => .ok i
  | none => .error (if x.isNaN then .integerFromNaN else .tooLarge)

def scaledWeight (weight : Value) : Except Failure Int := do
  let x := (← weight.readReal).mul (.ofInt weightScale)
  wholeOf x.nearestInt? x

def roundedTarget (up : Bool) (n : Number) : Except Failure Int :=
  match n with
  | .whole i => .ok i
  | .ratio q => .ok (if up then q.ceil else q.floor)
  | .real x => wholeOf (if up then x.ceil? else x.floor?) x

def wholeTarget (op : Operator) (target : Value) : Except Failure Int := do
  if (← target.readReal).isInteger then target.readInt
  else roundedTarget (op == .ge) (← target.number)

namespace ScaledLibrary

variable (L : ScaledLibrary)

/-- A model with the row that takes the place of a relation to a target; without variables, the
target is compared with zero. -/
def relateTo (op : Operator) (members : List L.Variable) (target : Value) (model : L.Model) :
    Except Failure L.Model := do
  let whole ← wholeTarget op target
  if op == .eq && !(← target.readReal).isInteger then return L.addAny [] model
  else if members.isEmpty then return L.addTruth (op.holds 0 whole) model
  else L.addRow (← L.relate op (L.sum (members.map L.single)) whole) model

/-- A model whose last row has a name, if there is one for it. -/
def named (name : Value) (model : L.Model) : Except Failure L.Model :=
  if name.truth then L.nameLast name model else .ok model

def addConstraint (declared : Lookup L.Variable) (model : L.Model) (c : Constraint) :
    Except Failure L.Model := do
  let members ← c.members declared
  L.named c.name (← L.relateTo c.operator members c.target model)

def minimizeSum (terms : List L.Expression) (model : L.Model) : Except Failure L.Model :=
  if terms.isEmpty then .ok model else L.minimize (L.sum terms) model

def build (p : Problem) : Reading (L.Model × Keyed L.Variable) := do
  let (unknowns, model) ← p.declareIn L.newBool L.blank
  let declared := Lookup.of unknowns
  let model ← liftM (p.constraints.foldlM (L.addConstraint declared) model)
  let terms ← (p.termsOver declared).mapM fun (weight, x) => do L.times (← scaledWeight weight) x
  return (← L.minimizeSum terms model, unknowns)

end ScaledLibrary

end Matchmaking
