import Matchmaking.Value.Reading

/-! Products of axes. `tuples` lists them outright, the last axis fastest; the odometer comes
upon the same rows of positions one after the other, so that it can be stopped at any time and
its axes may be endless. No axes have no tuples. -/
namespace Matchmaking

/-- One item of each row, in every way, the last row fastest. -/
def choices : List (List α) → List (List α)
  | [] => [[]]
  | axis :: rest => axis.flatMap fun item => (choices rest).map (item :: ·)

def tuples (axes : List (List α)) : List (List α) :=
  if axes.isEmpty || axes.any List.isEmpty then [] else choices axes

namespace Odometer

/-- The next row of positions: the last place that can turn is turned, and the places after it
start again. -/
def next? : List Number → List Nat → Option (List Nat)
  | size :: sizes, place :: places =>
    match next? sizes places with
    | some turned => some (place :: turned)
    | none =>
      if Number.lt (.whole (place + 1)) size then some ((place + 1) :: places.map fun _ => 0)
      else none
  | _, _ => none

/-- Up to `limit` rows of positions, from the given one on. -/
def walk (sizes : List Number) : Nat → List Nat → List (List Nat)
  | 0, _ => []
  | limit + 1, places =>
    places :: match next? sizes places with
      | some turned => walk sizes limit turned
      | none => []

def isClosed (size : Number) : Bool := Number.le size (.whole 0)

def run (limit : Nat) (sizes : List Number) : List (List Nat) :=
  if sizes.isEmpty || sizes.any isClosed then [] else walk sizes limit (sizes.map fun _ => 0)

/-- Sizes as numbers; those behind a closed axis are not looked at. -/
def readSizes : List Value → Except Failure (List Number)
  | [] => .ok []
  | v :: rest => do
    let size ← v.number
    if isClosed size then return [size] else return size :: (← readSizes rest)

/-- The first `limit` rows of positions for axes of whatever sizes. -/
def ofSizes (limit : Nat) (sizes : Value) : Except Failure (List (List Nat)) := do
  if limit = 0 then return [] else return run limit (← readSizes (← sizes.items))

def pick (axes : List (Array α)) (places : List Nat) : List α :=
  (axes.zip places).filterMap fun (axis, place) => axis[place]?

/-- The first `limit` tuples of a product of axes. -/
def tuplesOf (limit : Nat) (axes : Value) : Except Failure (List (List Value)) := do
  if limit = 0 then return []
  else
    let axes := (← axes.rows).map List.toArray
    return (run limit (axes.map fun axis => .whole axis.size)).map (pick axes)

end Odometer

@[simp] theorem choices_nil : choices ([] : List (List α)) = [[]] := rfl

theorem mem_choices_cons {axis : List α} {rest : List (List α)} {row : List α} :
    row ∈ choices (axis :: rest) ↔
      ∃ item ∈ axis, ∃ others ∈ choices rest, row = item :: others := by
  simp only [choices, List.mem_flatMap, List.mem_map, eq_comm]

end Matchmaking
