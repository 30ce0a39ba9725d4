import Matchmaking.Value.Stream

/-! What solving leaves behind: progress messages, the calls that were made outside and how far the
streams in a program have been read. -/
namespace Matchmaking

structure ShellCall where
  command : List Value
  file : String
  deriving Inhabited

structure RealCall where
  solver : String
  timeLimit : Value
  deriving Inhabited

structure Log where
  messages : List String := []
  shell : Option ShellCall := none
  real : Option RealCall := none
  /-- The time limit of a call, missing if there was none. -/
  scaled : Option Value := none
  streams : Streams := []
  deriving Inhabited

abbrev Run (α : Type) := ExceptT Failure (StateM Log) α

/-- Reads on where the log says that streams were left. -/
def reading (read : Reading α) : Run α := do
  let (result, streams) := read.run.run (← get).streams
  modify fun log => { log with streams }
  result

end Matchmaking
