import Matchmaking.Value.Reading

/-! How far streams have been read. A stream gives each of its items once, to whoever reads it
first, so what a later reader finds depends on the earlier ones. Values stay as they are; the
number of items read is kept beside them, under the mark of the stream. Whatever is no stream
can be read again and again and leaves no trace. -/
namespace Matchmaking

/-- The number of items read from each stream, under its mark. -/
abbrev Streams := List (Nat × Nat)

/-- Reading that may fail half-way; what has been read by then stays read. -/
abbrev Reading (α : Type) := ExceptT Failure (StateM Streams) α

namespace Streams

def position (streams : Streams) (mark : Nat) : Nat := (streams.lookup mark).getD 0

def advance (streams : Streams) (mark : Nat) : Streams :=
  (mark, streams.position mark + 1) :: streams.filter (·.1 != mark)

def unread (streams : Streams) (mark : Nat) (items : List Value) : List Value :=
  items.drop (streams.position mark)

def readEach (mark : Nat) (read : Value → Except Failure α) : List Value → Reading (List α)
  | [] => return []
  | item :: rest => do
    modify (advance · mark)
    return (← read item) :: (← readEach mark read rest)

/-- Walks through a value, reading its items one after the other; a stream goes on where the
last reader left it. -/
def walk (read : Value → Except Failure α) (v : Value) : Reading (List α) :=
  match v with
  | .stream mark items => do readEach mark read ((← get).unread mark items)
  | v => liftM (v.traverse read)

def foldEach (mark : Nat) (step : σ → Value → Except Failure σ) (state : σ) : List Value → Reading σ
  | [] => return state
  | item :: rest => do
    modify (advance · mark)
    foldEach mark step (← step state item) rest

def fold (step : σ → Value → Except Failure σ) (start : σ) (v : Value) : Reading σ :=
  match v with
  | .stream mark items => do foldEach mark step start ((← get).unread mark items)
  | v => liftM (v.fold step start)

theorem run_lift (checked : Except Failure α) (streams : Streams) :
    (liftM checked : Reading α).run.run streams = (checked, streams) := by
  cases checked <;> rfl

/-- Walking through what is no stream depends on nothing read before and leaves no trace. -/
theorem walk_of_not_isStream {v : Value} (lasting : v.isStream = false)
    (read : Value → Except Failure α) (streams : Streams) :
    (walk read v).run.run streams = (v.traverse read, streams) := by
  rw [← run_lift (v.traverse read)]
  cases v with
  | stream => simp [Value.isStream] at lasting
  | _ => rfl

end Streams

end Matchmaking
