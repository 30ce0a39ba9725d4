import Matchmaking.Value.Equality

/-! Data filed under keys, in the order in which the keys first came. A key is found under any
value that is the same, and filing under it again keeps the key and its place. -/
namespace Matchmaking

abbrev Keyed (β : Type) := List (Value × β)

namespace Keyed

variable {α β : Type}

def keys (entries : Keyed β) : List Value := entries.map (·.1)

def get? (entries : Keyed β) (key : Value) : Option β :=
  (entries.find? fun entry => entry.1.same key).map (·.2)

def has (entries : Keyed β) (key : Value) : Bool := (entries.get? key).isSome

def mapData (change : α → β) (entries : Keyed α) : Keyed β :=
  entries.map fun (key, datum) => (key, change datum)

def alter (key : Value) (change : Option β → β) : Keyed β → Keyed β
  | [] => [(key, change none)]
  | entry :: rest =>
    if entry.1.same key then (entry.1, change (some entry.2)) :: rest
    else entry :: alter key change rest

theorem has_iff {entries : Keyed β} {key : Value} :
    entries.has key = true ↔ ∃ other ∈ entries.keys, other.same key = true := by
  simp [has, get?, keys]

theorem keys_alter {entries : Keyed β} {key : Value} (h : entries.has key = true)
    (change : Option β → β) : (alter key change entries).keys = entries.keys := by
  induction entries with
  | nil => simp [has, get?] at h
  | cons entry rest ih =>
    unfold alter
    split
    · simp [keys]
    · rename_i differs
      have : has rest key = true := by
        rw [has_iff] at h ⊢
        simpa [keys, differs] using h
      simpa [keys] using ih this

theorem alter_of_not_has {entries : Keyed β} {key : Value} (h : entries.has key = false)
    (change : Option β → β) : alter key change entries = entries ++ [(key, change none)] := by
  induction entries with
  | nil => rfl
  | cons entry rest ih =>
    unfold alter
    split
    · rename_i matched
      simp [has, get?, matched] at h
    · rename_i differs
      rw [ih, List.cons_append]
      simpa [has, get?, differs] using h

def put (entries : Keyed β) (key : Value) (datum : β) : Keyed β :=
  entries.alter key fun _ => datum

end Keyed

end Matchmaking
