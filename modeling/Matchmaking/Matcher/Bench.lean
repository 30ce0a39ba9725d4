import Matchmaking.Matcher.Call
import Matchmaking.Matcher.Solve

/-! A matcher in use, configured and asked in any order, alone or beside others that draw from
the same namer. Its active identifiers are noted when they are first asked for and looked up from
then on, until a composer is offered. -/
namespace Matchmaking

/-- What is noted of a matcher: its active identifiers, in order and as a set. The order is
forgotten when it may change; the set stays behind until the identifiers are noted again. -/
structure Notes where
  active : Option (List String) := none
  members : Std.HashSet String := ∅

structure Bench where
  desk : Desk
  notes : Notes := {}

abbrev Use (α : Type) := ExceptT Failure (StateM Bench) α

namespace Bench

def atDesk (step : Setup α) : Use α := do
  let bench ← get
  let (result, desk) := step.run.run bench.desk
  set { bench with desk }
  result

/-- Lets the tuples of a restriction be selected. Even a composer without tuples has the notes
forgotten, while one that is refused has not. -/
def addComposer (restriction : Keyed Value) (weight : Value) : Use (Option Composer) := do
  let composer ← atDesk (Matcher.offer restriction weight)
  modify fun bench => { bench with notes.active := none }
  atDesk (Matcher.enlist composer)

def includeMarkers (map : MarkerMap) (weight : Value) : Use (List Composer) := do
  let added ← (← map.pairs).mapM fun pair => addComposer (Matcher.restrictionOf pair) weight
  return added.filterMap id

def configure : Call → Use Answer
  | .addComposer restriction weight => return .composer (← addComposer restriction weight)
  | .includeMarkers map weight => return .composers (← includeMarkers map weight)
  | call => atDesk call.run

/-- The identifiers that may be selected, noted if they were not. -/
def active : Use (List String) := do
  let bench ← get
  match bench.notes.active with
  | some ids => return ids
  | none =>
    let ids := bench.desk.matcher.active
    set { bench with notes := ⟨some ids, .ofList ids⟩ }
    return ids

/-- The identifiers that rows are narrowed to, if they are narrowed at all. -/
def scope : Use (Option (Std.HashSet String)) := do
  let _ ← active
  let bench ← get
  return if bench.desk.matcher.composers.isEmpty then none else some bench.notes.members

def countConstraints : Use (List Constraint) := do
  let scope ← scope
  let desk := (← get).desk
  desk.matcher.countConstraintsIn scope desk.namer.taken

def objective : Use (Keyed Value) := do (← get).desk.matcher.objective

def problem : Use Problem := do
  let scope ← scope
  let counts ← countConstraints
  let ids ← active
  (← get).desk.matcher.composeIn ids scope counts

def text : Use (Reading String) := do return (← problem).toText

/-- A run of a solver on the program, to be started. -/
def solve (registry : Registry) (backend timeLimit : Value) (world : World) : Use (Run Matches) := do
  let p ← problem
  let ids ← active
  return (← get).desk.solveProgram ids p registry backend timeLimit world

end Bench

inductive Query where
  | active
  | objective
  | countConstraints
  | problem
  | text
  | solve (registry : Registry) (backend timeLimit : Value) (world : World)

inductive Action where
  | configure (call : Call)
  | ask (query : Query)

inductive Reply where
  | answer (answer : Answer)
  | ids (ids : List String)
  | weights (objective : Keyed Value)
  | rows (rows : List Constraint)
  | program (p : Problem)
  | text (read : Reading String)
  | run (solving : Run Matches)

def Query.run : Query → Use Reply
  | .active => return .ids (← Bench.active)
  | .objective => return .weights (← Bench.objective)
  | .countConstraints => return .rows (← Bench.countConstraints)
  | .problem => return .program (← Bench.problem)
  | .text => return .text (← Bench.text)
  | .solve registry backend timeLimit world =>
    return .run (← Bench.solve registry backend timeLimit world)

def Action.run : Action → Use Reply
  | .configure call => return .answer (← Bench.configure call)
  | .ask query => query.run

/-- The bench after actions of which each may have succeeded or failed. -/
def Bench.after (bench : Bench) (actions : List Action) : Bench :=
  actions.foldl (fun bench action => (action.run.run.run bench).2) bench

/-- Matchers, each with its notes and with the number of the namer that it draws from. -/
structure Session where
  matchers : List (Matcher × Notes × Nat) := []
  namers : List Namer := []
  deriving Inhabited

namespace Session

def bench? (s : Session) (number : Nat) : Option Bench := do
  let (matcher, notes, shared) ← s.matchers[number]?
  return ⟨⟨matcher, ← s.namers[shared]?⟩, notes⟩

def put (s : Session) (number : Nat) (bench : Bench) : Session :=
  match s.matchers[number]? with
  | none => s
  | some (_, _, shared) =>
    ⟨s.matchers.set number (bench.desk.matcher, bench.notes, shared),
      s.namers.set shared bench.desk.namer⟩

end Session

end Matchmaking
