import Matchmaking.Value.Reading

/-! How often an element is to be matched: exactly so many times, or between two bounds. -/
namespace Matchmaking

/-- A count rule. Its numbers are the caller's and are looked at only when rows are made. -/
inductive Count where
  | exactly (count : Value)
  | between (minimum maximum : Value)
  deriving Inhabited

namespace Count

def toValue : Count → Value
  | .exactly count => .exactly count
  | .between minimum maximum => .between minimum maximum

def rangeEnds (start stop step : Int) : Int × Int :=
  let last := start + step * (Value.rangeLength start stop step - 1)
  if 0 < step then (start, last) else (last, start)

/-- The rule meant by a whole number that is not negative, by a range with members, by a pair
of whole numbers in order, or by a rule. -/
def read (spec : Value) : Except Failure Count :=
  match spec with
  | .exactly count => .ok (.exactly count)
  | .between minimum maximum => .ok (.between minimum maximum)
  | .int count =>
    if count < 0 then .error (.negativeCount count) else .ok (.exactly (.int count))
  | .range start stop step => do
    if (← spec.length) = 0 then .error (.emptyCounts spec)
    else
      let (low, high) := rangeEnds start stop step
      return .between (.int low) (.int high)
  | .tuple [.int low, .int high] | .list [.int low, .int high] =>
    if high < low then .error (.invertedCounts low high)
    else .ok (.between (.int low) (.int high))
  | spec => .error (.badCount spec)

end Count

end Matchmaking
