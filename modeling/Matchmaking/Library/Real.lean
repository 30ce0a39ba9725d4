import Matchmaking.Library.Exhaustive
import Matchmaking.Library.Target
import Matchmaking.Problem.RealLibrary
import Std.Data.HashSet.Lemmas

/-! A library for mixed-integer programs that keeps what it is given. Weights and targets have to be
finite, and every row has a name of its own. Names are made fit for model files, so variables of
different identifiers may have one name; a variable whose identifier counts as false has none. A
model is solved as it is told beforehand, or by an exhaustive search. -/
namespace Matchmaking

structure RealAnswer where
  status : Int
  values : Keyed Value
  available : List String
  deriving Inhabited

namespace RealModel

structure Variable where
  id : Value
  name : Option String
  deriving Inhabited

abbrev Expression := List (Variable × Number)

structure Relation where
  terms : Expression
  operator : Operator
  target : Binary64
  deriving Inhabited

end RealModel

structure RealModel where
  objective : RealModel.Expression := []
  rows : Array (String × RealModel.Relation) := #[]
  used : Std.HashSet String := ∅
  /-- The number of the next running name. -/
  next : Nat := 1
  status : Int := 0
  /-- The values of a solution by identifier. -/
  values : Lookup Value := .empty
  deriving Inhabited

namespace RealModel

/-- Some characters of a name given way to underscores. -/
def masked (characters : String) (name : String) : String :=
  String.ofList (name.toList.map fun c => if characters.toList.contains c then '_' else c)

/-- The variable for an identifier, which is a text or counts as false. -/
def binary (id : Value) : Except Failure Variable :=
  if !id.truth then .ok ⟨id, none⟩
  else if !id.isText then .error .wrongKind
  else do return ⟨id, some (masked "-+[] >/" (← Failure.shown id))⟩

/-- The name of a row that has one, which has to be a text. -/
def rowName (name : Value) : Except Failure String :=
  match name with
  | .bytes _ => .error .wrongKind
  | name => match name.text? with
    | some s => .ok (masked "-+[] " s)
    | none => .error .noAttribute

/-- The first running name from `number` on that no row has, and the number after it. -/
def unusedName (used : Std.HashSet String) : Nat → Nat → String × Nat
  | 0, number => ("_C" ++ Nat.repr number, number + 1)
  | fuel + 1, number =>
    let name := "_C" ++ Nat.repr number
    if used.contains name then unusedName used fuel (number + 1) else (name, number + 1)

def relate (op : Operator) (terms : Expression) (target : Value) : Reading Relation := do
  return ⟨terms, op, ← Target.total target⟩

def addRow (row : Relation) (name : Value) (m : RealModel) : Except Failure RealModel := do
  let (name, next) ←
    if name.truth then do pure (← rowName name, m.next)
    else pure (unusedName m.used m.used.size m.next)
  if m.used.contains name then .error .modelRefused
  else return { m with rows := m.rows.push (name, row), used := m.used.insert name, next }

def terms (m : RealModel) : Expression :=
  m.objective ++ m.rows.toList.flatMap fun (_, row) => row.terms

def occurring (m : RealModel) : Keyed (Option String) :=
  Keyed.ofPairs (m.terms.map fun (x, _) => (x.id, x.name))

/-- Data in ascending order of the names they stand under; without a name there is no order. -/
def byName (named : List (Option String × β)) : Except Failure (List (Option String × β)) :=
  if 1 < named.length && named.any (·.1.isNone) then .error .wrongKind
  else .ok (named.mergeSort fun a b => a.1.getD "" ≤ b.1.getD "")

/-- Solvers sort the variables that a model is about, and others of their own, by name. -/
def sortVariables (m : RealModel) (others : List String) : Except Failure Unit := do
  let names := m.occurring.map (·.2) ++ others.map some
  let _ ← byName (names.map fun name => (name, ()))

/-- The values that an answer gives to the variables of a model. Values go by the names of
variables, and a variable that the model is not about has none. -/
def given (m : RealModel) (answer : RealAnswer) : Keyed Value :=
  let values := Lookup.of answer.values
  m.occurring.map fun (id, name) =>
    (id, (values.get? ((name.map Value.text).getD .null)).getD .null)

def exact (terms : Expression) : List (Value × Rat) :=
  terms.map fun (x, n) => (x.id, n.worth?.getD 0)

def listed (terms : Expression) : Except Failure (List (Option String × Rat)) :=
  let names := Lookup.of (terms.map fun (x, _) => (x.id, x.name))
  byName ((Exhaustive.merged (exact terms)).map fun (id, q) => ((names.get? id).getD none, q))

def best? (m : RealModel) : Option (List Bool) :=
  let ids := m.occurring.keys
  let rows := m.rows.toList.map fun (_, row) =>
    ⟨Exhaustive.align ids (exact row.terms), row.operator, (Number.real row.target).worth?.getD 0⟩
  Exhaustive.best? ids.length rows (Exhaustive.align ids (exact m.objective))

/-- The model with what an exhaustive search finds. Without an objective the search needs a
variable of its own. -/
def searched (m : RealModel) : Except Failure RealModel := do
  m.sortVariables (if m.objective.isEmpty then ["__dummy"] else [])
  match m.best? with
  | some assignment =>
    let values := m.occurring.keys.zip (assignment.map fun chosen => .real (.ofInt chosen.toInt))
    return { m with status := 1, values := .of values }
  | none => return { m with status := -1 }

def answered (answer : RealAnswer) (solver : String) (timeLimit : Value) (m : RealModel) : Run RealModel := do
  modify fun log => { log with real := some ⟨solver, timeLimit⟩ }
  m.sortVariables []
  return { m with status := answer.status, values := .of (m.given answer) }

def statusText? (code : Int) : Option String :=
  [(1, "Optimal"), (0, "Not Solved"), (-1, "Infeasible"), (-2, "Unbounded"), (-3, "Undefined")].lookup code

def value (m : RealModel) (x : Variable) : Value := (m.values.get? x.id).getD .null

/-- The weighted sum of values, missing if one of them is. A sum has a point unless there is
nothing to be added up. -/
def weightedSum (m : RealModel) : Except Failure Value := do
  let sum ← m.objective.foldlM
    (fun sum (x, weight) => do
      match sum, m.value x with
      | none, _ => return none
      | _, .null => return none
      | some sum, value =>
        match ((← value.number).mul? weight).bind sum.add? with
        | some next => return some next
        | none => .error .tooLarge)
    (some (if m.objective.isEmpty then .whole 0 else .real .zero))
  return (sum.map Value.ofNumber).getD .null

/-- A search always reports a double. -/
def reported (isSearched : Bool) (m : RealModel) : Except Failure Value := do
  let sum ← m.weightedSum
  if isSearched then return .real (← sum.readReal) else return sum

def library (answer : Option RealAnswer) : RealLibrary where
  Variable := Variable
  Expression := Expression
  Relation := Relation
  Model := RealModel
  blank := {}
  binary := binary
  single x := [(x, .whole 1)]
  times weight x := do return [(x, ← Target.coefficient weight)]
  sum expressions := .ok expressions.flatten
  relate := relate
  minimize objective m := .ok { m with objective }
  minimizeNothing m := { m with objective := [] }
  addRow := addRow
  isAvailable solver := answer.all (·.available.contains solver)
  run solver timeLimit m :=
    match answer with
    | none => liftM m.searched
    | some answer => m.answered answer solver timeLimit
  status := status
  statusText? := statusText?
  value := value
  objective := reported answer.isNone

end RealModel

end Matchmaking
