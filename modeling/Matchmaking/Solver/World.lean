import Matchmaking.Problem.RealLibrary
import Matchmaking.Problem.ScaledLibrary

/-! What solvers find outside: the executables that are installed and what they answer, and the
libraries that models are built with. -/
namespace Matchmaking

/-- What an installed executable prints and how it ends; a broken one cannot be started. -/
structure ShellAnswer where
  output : String := ""
  errors : String := ""
  code : Int := 0
  broken : Bool := false
  deriving Inhabited

structure World where
  installed : List String := []
  /-- The executable named by the environment. -/
  environment : Option String := none
  shell : ShellAnswer := {}
  real : RealLibrary := default
  scaled : ScaledLibrary := default
  /-- Whether nobody listens to progress messages. -/
  quiet : Bool := false
  deriving Inhabited

def announce (world : World) (message : String) : Run Unit :=
  unless world.quiet do modify fun log => { log with messages := log.messages ++ [message] }

end Matchmaking
