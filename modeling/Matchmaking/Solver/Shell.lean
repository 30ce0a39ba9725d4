import Matchmaking.Problem.Basic
import Matchmaking.Solver.Listing
import Matchmaking.Solver.World

/-! Solving by an executable: the program text goes into a file, the executable is started on
it and its listing is read. Exit codes up to three are regular; of a listing that comes with
another one nothing is believed but that there is no solution. -/
namespace Matchmaking.Shell

def defaultExecutable : Value := .text "lp_solve"

/-- The executable that is asked for, or named by the environment, or the default one. -/
def executable (asked : Value) (world : World) : Value :=
  if asked.truth then asked
  else match world.environment with
    | some name => if name.isEmpty then defaultExecutable else .text name
    | none => defaultExecutable

def isInstalled (name : Value) (world : World) : Except Failure Bool :=
  match name with
  | .bytes value => .ok (world.installed.any fun other => other.toUTF8.toList == value)
  | name => do return world.installed.contains (← Value.orWrongKind name.text?)

def isAvailable (asked : Value) (world : World) : Except Failure Bool :=
  isInstalled (executable asked world) world

/-- The arguments that set a time limit, which is at least a second. -/
def timeArguments (timeLimit : Value) : Except Failure (List Value) := do
  match timeLimit with
  | .null => return []
  | limit => return [.text "-timeout", .text (← Failure.whole (max 1 (← limit.readInt)))]

/-- The status and selection of a listing that ended with an exit code. -/
def judge (code : Int) (status : Status) (selected : List String) : Status × List String :=
  if status = .optimal ∧ code ∉ [0, 1, 2, 3] then (.unknown, [])
  else if status = .optimal ∧ code = 1 then (.feasible, selected)
  else (status, selected)

def codeText (code : Int) : String := String.ofList (Identifier.numeral code)

def solve (p : Problem) (timeLimit asked : Value) (world : World) : Run Outcome := do
  let binary := executable asked world
  if !(← isInstalled binary world) then throw (.executableMissing binary)
  else
    let command := [binary, .text "-S3"] ++ (← timeArguments timeLimit)
    let file ← reading p.toText
    let _ ← p.size
    modify fun log => { log with shell := some ⟨command, file⟩ }
    let answer := world.shell
    if answer.broken then throw .cannotStart
    else
      let output := String.ofList (Text.unifyLineEnds answer.output.toList)
      let errors := Text.unifyLineEnds answer.errors.toList
      let (status, names) ← Listing.read output (some p.unknowns)
      let (status, names) := judge answer.code status names
      let message := s!"lp_solve solution: status={status.label}, selected={names.length}"
      let complaint :=
        if answer.code = 0 ∨ answer.code = 1 ∨ errors.isEmpty then []
        else [String.ofList (Text.trim Text.isBlank errors)]
      announce world message
      return {
        status, selected := .list (names.map .text), progress := message :: complaint
        raw := .text ("lp_solve exit code " ++ codeText answer.code) }

end Matchmaking.Shell
