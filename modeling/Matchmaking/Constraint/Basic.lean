import Matchmaking.Constraint.Name

/-! Linear rows over variables that are zero or one: the sum of the listed variables stands in
a relation to a target. Strict relations are turned once, when a row is made, into inclusive
ones with the target moved by one. A flexible lower bound never asks for more than there are
variables left. -/
namespace Matchmaking

namespace Operator

/-- The relation that a word stands for and how far it moves its target. -/
def spelled? (word : String) : Option (Operator × Int) :=
  match word with
  | "=" | "==" => some (.eq, 0)
  | "<=" | "=<" => some (.le, 0)
  | ">=" | "=>" => some (.ge, 0)
  | "<" => some (.le, -1)
  | ">" => some (.ge, 1)
  | _ => none

/-- An operator, given as such or as a word between blanks, and its target as it is compared
with. Beside a word the target has to be a number. -/
def normalize (operator target : Value) : Except Failure (Operator × Value) := do
  match operator with
  | .operator op => return (op, target)
  | operator =>
    let word := String.ofList (Text.trim Text.isBlank (← Failure.shown operator).toList)
    match spelled? word with
    | none => .error (.unknownOperator operator)
    | some (op, shift) => return (op, ← target.add (.int shift))

end Operator

structure Constraint where
  unknowns : List Value
  operator : Operator
  target : Value
  name : Value := .null
  flexible : Value := .bool false
  deriving Inhabited

/-- An amount as it stands in a row or a term: a whole double is written without its point. -/
def amount (v : Value) : Except Failure String :=
  match v with
  | .real x =>
    if x.isInteger then Failure.whole (x.truncate?.getD 0) else Failure.shown v
  | v => Failure.shown v

namespace Constraint

def make (unknowns operator target name flexible : Value) : Except Failure Constraint := do
  let unknowns ← unknowns.items
  let (op, target) ← Operator.normalize operator target
  return ⟨unknowns, op, target, name, flexible⟩

/-- A row from a mapping with its parts; the variables may go by a short name. -/
def ofSpec (spec : Keyed Value) : Except Failure Constraint := do
  let part := fun (key : String) => spec.get? (.text key)
  match (part "variables").getD ((part "vars").getD .null) with
  | .null => .error .variablesMissing
  | unknowns =>
    match part "operator", part "target" with
    | some operator, some target =>
      make unknowns operator target ((part "name").getD .null)
        (.bool ((part "flexible").getD (.bool false)).truth)
    | _, _ => .error .relationMissing

/-- Whether a missing variable lowers the target. -/
def isLenient (c : Constraint) : Bool := c.flexible.truth && c.operator == .ge

/-- The row with what is left of its variables, as it goes into a program; a row without
variables is dropped. -/
def keeping (c : Constraint) (unknowns : List Value) : Except Failure (Option Constraint) := do
  if unknowns.isEmpty then return none
  else
    let target ← if c.isLenient then c.target.atMost unknowns.length else pure c.target
    return some { c with unknowns, target }

def finalize (c : Constraint) (scope : Option Value) : Except Failure (Option Constraint) := do
  match scope with
  | none => c.keeping c.unknowns
  | some place => c.keeping (← Value.sift place c.unknowns)

def toLine (c : Constraint) : Except Failure String := do
  let terms ← c.unknowns.mapM fun v => do return "+" ++ (← Failure.shown v)
  let label ← if c.name.truth then do pure ((← Failure.shown c.name) ++ ": ") else pure ""
  return label ++ String.intercalate " " terms ++ " " ++ c.operator.symbol ++ " " ++
    (← amount c.target) ++ ";"

end Constraint

end Matchmaking
