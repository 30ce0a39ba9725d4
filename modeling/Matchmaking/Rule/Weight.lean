import Matchmaking.Value.Reading

/-! Weights: one number for all tuples, or a row of numbers handed out in turn, over and over. -/
namespace Matchmaking.Weight

def isRow : Value → Bool
  | .range .. | .list _ | .tuple _ => true
  | _ => false

/-- A single weight is a number other than a truth value; a row has at least one number and
nothing else. -/
def check (weight : Value) : Except Failure Value := do
  if isRow weight then
    let row ← weight.items
    if !row.isEmpty && row.all (·.number?.isSome) then return weight
    else .error (.emptyWeights weight)
  else
    match weight with
    | .int _ | .ratio _ | .real _ => return weight
    | _ => .error (.badWeight weight)

/-- The weights that are handed out in turn; none if a row is empty. -/
def cycle (weight : Value) : Except Failure (List Value) :=
  if isRow weight then weight.items else .ok [weight]

def turn? (row : Array Value) (place : Nat) : Option Value := row[place % row.size]?

/-- The first weights handed out, fewer only if there are none at all. -/
def take (count : Nat) (weight : Value) : Except Failure (List Value) := do
  let row := (← cycle weight).toArray
  return (List.range count).filterMap (turn? row)

end Matchmaking.Weight
