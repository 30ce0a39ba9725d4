import Matchmaking.Library.Exhaustive
import Matchmaking.Problem.ScaledLibrary

/-! A library for whole coefficients that keeps what it is given. Targets have 64 bits. Names may be
encoded; whether they can be decoded is found out when they are read. A model is solved as it is
told beforehand, or by an exhaustive search. -/
namespace Matchmaking

structure ScaledAnswer where
  status : String
  values : Keyed Value
  objective : Value
  deriving Inhabited

namespace ScaledModel

/-- The name of a variable or a row as it was given: a text, or bytes that stand for one. -/
inductive Label where
  | text (value : String)
  | encoded (value : List UInt8)
  deriving Inhabited

namespace Label

def ofValue (v : Value) : Except Failure Label :=
  match v with
  | .bytes value => .ok (.encoded value)
  | v => do return .text (← Value.orWrongKind v.text?)

def read : Label → Except Failure String
  | .text value => .ok value
  | .encoded value => match String.fromUTF8? value.toByteArray with
    | some s => .ok s
    | none => .error .undecodable

end Label

structure Variable where
  place : Nat
  label : Label
  deriving Inhabited

abbrev Expression := List (Variable × Int)

inductive Row where
  | linear (terms : Expression) (operator : Operator) (target : Int)
  | truth (holds : Bool)
  deriving Inhabited

end ScaledModel

structure ScaledModel where
  labels : Array ScaledModel.Label := #[]
  rows : Array (ScaledModel.Label × ScaledModel.Row) := #[]
  objective : ScaledModel.Expression := []
  deriving Inhabited

namespace ScaledModel

/-- The least and the greatest target. -/
def least : Int := -Nat.pow 2 63
def greatest : Int := Nat.pow 2 63 - 1

def fits (coefficient : Int) : Bool := least ≤ coefficient && coefficient ≤ greatest

def newBool (name : Value) (m : ScaledModel) : Except Failure (Variable × ScaledModel) := do
  let label ← Label.ofValue name
  return (⟨m.labels.size, label⟩, { m with labels := m.labels.push label })

/-- A sum and its limit. The ends of the range stand for no limit at all, so neither can be met
exactly, nor can a limit lie beyond them. A row without limits is kept as one with an upper limit at
the end. -/
def relate (op : Operator) (terms : Expression) (target : Int) : Except Failure Row :=
  if !fits target then .error .wrongKind
  else match op with
    | .eq => if target = least ∨ target = greatest then .error .extremeEquality
      else .ok (.linear terms .eq target)
    | .le => if target = least then .error .extremeBound else .ok (.linear terms .le target)
    | .ge => if target = greatest then .error .extremeBound
      else if target = least then .ok (.linear terms .le greatest)
      else .ok (.linear terms .ge target)

def push (row : Row) (m : ScaledModel) : ScaledModel := { m with rows := m.rows.push (.text "", row) }

def addAny (xs : List Variable) (m : ScaledModel) : ScaledModel :=
  m.push (if xs.isEmpty then .truth false else .linear (xs.map (·, 1)) .ge 1)

def nameLast (name : Value) (m : ScaledModel) : Except Failure ScaledModel := do
  let label ← Label.ofValue name
  return { m with rows := m.rows.modify (m.rows.size - 1) fun (_, row) => (label, row) }

def exact (terms : Expression) : List (Value × Rat) :=
  terms.map fun (x, coefficient) => (.int x.place, coefficient)

def listed (terms : Expression) : Except Failure (List (String × Int)) := do
  let labels := Lookup.of (terms.map fun (x, _) => (.int x.place, x.label))
  let named ← (Exhaustive.merged (exact terms)).mapM fun (place, q) => do
    return (← ((labels.get? place).getD default).read, q.num)
  return named.mergeSort fun a b => a.1 ≤ b.1

/-- The terms of a whole objective; none if a coefficient is too large for one. -/
def wholeObjective (m : ScaledModel) : Expression :=
  if m.objective.all fun (_, c) => fits c then m.objective.filter fun (_, c) => c != 0 else []

def aligned (m : ScaledModel) (terms : Expression) : List Rat :=
  Exhaustive.align ((List.range m.labels.size).map fun (place : Nat) => .int place) (exact terms)

/-- A truth value is searched as a sum over no variables. -/
def searchRow (m : ScaledModel) : Row → Exhaustive.Row
  | .linear terms operator target => ⟨m.aligned terms, operator, target⟩
  | .truth holds => ⟨[], .eq, if holds then 0 else 1⟩

def searched (m : ScaledModel) : Report Variable :=
  let weights := m.aligned m.objective
  match Exhaustive.best? m.labels.size (m.rows.toList.map fun (_, row) => m.searchRow row) weights with
  | some assignment =>
    { status := "OPTIMAL", value := fun x => .ok (.bool (assignment[x.place]?.getD false)),
      objective := .real (.ofRat (Exhaustive.sumOver weights assignment)) }
  | none => { status := "INFEASIBLE", value := fun _ => .ok .null, objective := .real .zero }

def reported (answer : ScaledAnswer) : Report Variable :=
  let values := Lookup.of answer.values
  { status := answer.status, objective := answer.objective
    value := fun x => do return (values.get? (.text (← x.label.read))).getD (.int 0) }

/-- The library, whose solver answers as told if it is told anything. -/
def library (answer : Option ScaledAnswer) : ScaledLibrary where
  Variable := Variable
  Expression := Expression
  Relation := Row
  Model := ScaledModel
  blank := {}
  newBool := newBool
  single x := [(x, 1)]
  times coefficient x := .ok [(x, coefficient)]
  sum expressions := expressions.flatten
  relate := relate
  addRow row m := .ok (m.push row)
  addTruth holds m := m.push (.truth holds)
  addAny := addAny
  nameLast := nameLast
  minimize objective m := .ok { m with objective }
  run timeLimit m :=
    match answer with
    | none => pure m.searched
    | some answer => do
      modify fun log => { log with scaled := some timeLimit }
      return reported answer

end ScaledModel

end Matchmaking
