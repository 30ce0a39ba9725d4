import Matchmaking.Constraint.Operator
import Matchmaking.Space.Product
import Matchmaking.Value.Filing

/-! Exhaustive search for the best assignment of variables that are zero or one, in exact numbers
throughout. Of equally good assignments the first one in order is taken. -/
namespace Matchmaking.Exhaustive

structure Row where
  coefficients : List Rat
  operator : Operator
  target : Rat
  deriving Inhabited

def sumOver (coefficients : List Rat) (assignment : List Bool) : Rat :=
  (coefficients.zip assignment).foldl (fun sum (c, chosen) => if chosen then sum + c else sum) 0

def Row.holds (row : Row) (assignment : List Bool) : Bool :=
  row.operator.compares (sumOver row.coefficients assignment) row.target

/-- The better of the best assignment so far and another one that satisfies the rows. -/
def better (weights : List Rat) (best : Option (List Bool)) (assignment : List Bool) :
    Option (List Bool) :=
  match best with
  | none => some assignment
  | some other =>
    if sumOver weights assignment < sumOver weights other then some assignment else best

def best? (count : Nat) (rows : List Row) (weights : List Rat) : Option (List Bool) :=
  (choices (List.replicate count [false, true])).foldl
    (fun best assignment =>
      if rows.all (·.holds assignment) then better weights best assignment else best) none

def merged (terms : List (Value × Rat)) : Keyed Rat := Keyed.gather (fun q sum => sum.getD 0 + q) terms

def align (keys : List Value) (terms : List (Value × Rat)) : List Rat :=
  let coefficients := Lookup.of (merged terms)
  keys.map fun key => (coefficients.get? key).getD 0

end Matchmaking.Exhaustive
