import Matchmaking.Value.Stream

/-! What the target of a row comes to as one double. A target may be a number, nothing at all,
or a nest of both, which is added up from left to right; of a mapping the data count. A text is
a nest of texts without end, unless it is empty. -/
namespace Matchmaking.Target

/-- A number as a coefficient; models take finite ones only. -/
def coefficient (v : Value) : Except Failure Number := do
  let n ← v.number
  let x ← Value.realOf n
  if x.isFinite then return n else .error .modelRefused

def summand (v : Value) : Except Failure Binary64 := do Value.realOf (← coefficient v)

mutual

def add (sum : Binary64) : Value → Reading Binary64
  | .null => return sum
  | .text value => if value.isEmpty then return sum else throw .endlessText
  | .operator _ => throw .endlessText
  | .list items => addItems sum items
  | .tuple items => addItems sum items
  | .dict entries => addData sum entries
  | .stream mark items => do addUnread mark ((← get).position mark) sum items
  | .bytes value => return value.foldl (fun sum b => sum.add (.ofInt b.toNat)) sum
  | .range start stop step => do
    let summands ← liftM ((Value.range start stop step).traverse summand)
    return summands.foldl Binary64.add sum
  | v => do return sum.add (← summand v)

def addItems (sum : Binary64) : List Value → Reading Binary64
  | [] => return sum
  | item :: rest => do addItems (← add sum item) rest

def addData (sum : Binary64) : List (Value × Value) → Reading Binary64
  | [] => return sum
  | (_, datum) :: rest => do addData (← add sum datum) rest

/-- A sum with the items of a stream added that come after those that have been read. -/
def addUnread (mark skipped : Nat) (sum : Binary64) : List Value → Reading Binary64
  | [] => return sum
  | item :: rest =>
    match skipped with
    | skipped + 1 => addUnread mark skipped sum rest
    | 0 => do
      modify (Streams.advance · mark)
      addUnread mark 0 (← add sum item) rest

end

/-- A zero has no sign in a model. -/
def unsigned (x : Binary64) : Binary64 := if x = .finite true 0 then .zero else x

/-- What a target comes to; one number comes to itself. -/
def total (v : Value) : Reading Binary64 := do
  if v.number?.isSome then return unsigned (← summand v)
  else add .zero v

end Matchmaking.Target
