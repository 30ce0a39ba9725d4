/-! The three comparisons of a linear row. -/
namespace Matchmaking

inductive Operator where
  | eq
  | le
  | ge
  deriving DecidableEq, Repr, Inhabited

namespace Operator

def symbol : Operator → String
  | .eq => "="
  | .le => "<="
  | .ge => ">="

def label : Operator → String
  | .eq => "EQ"
  | .le => "LE"
  | .ge => "GE"

def holds (op : Operator) (sum target : Int) : Bool :=
  match op with
  | .eq => sum == target
  | .le => sum ≤ target
  | .ge => target ≤ sum

def compares (op : Operator) (sum target : Rat) : Bool :=
  match op with
  | .eq => sum == target
  | .le => sum ≤ target
  | .ge => target ≤ sum

end Operator

end Matchmaking
