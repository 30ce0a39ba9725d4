import Matchmaking.Value.Basic

/-! What a solver run comes to: a status and, when the status is good, the identifiers that
were selected. -/
namespace Matchmaking

inductive Status where
  | optimal
  | feasible
  | infeasible
  | unknown
  | invalid
  deriving DecidableEq, Repr, Inhabited

namespace Status

def all : List Status := [.optimal, .feasible, .infeasible, .unknown, .invalid]

def label : Status → String
  | .optimal => "OPTIMAL"
  | .feasible => "FEASIBLE"
  | .infeasible => "INFEASIBLE"
  | .unknown => "UNKNOWN"
  | .invalid => "MODEL_INVALID"

def ofLabel? (label : String) : Option Status := all.find? (·.label == label)

def ok : Status → Bool
  | .optimal => true
  | .feasible => true
  | _ => false

end Status

structure Outcome where
  status : Status
  selected : Value
  progress : List String := []
  raw : Value := .null
  objective : Value := .null
  deriving Inhabited

end Matchmaking
