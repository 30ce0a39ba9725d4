import Matchmaking.Value.Lookup

/-! Filing many data under keys. Entries in the making stand beside the places of their keys, so
each datum is filed without a search, and the outcome is that of filing them one after the other
by search. A roster is a row of different values that are found in the same way. -/
namespace Matchmaking

variable {α β : Type}

namespace Keyed

def place? (entries : Keyed β) (key : Value) : Option Nat :=
  entries.findIdx? fun entry => entry.1.same key

theorem alter_eq (entries : Keyed β) (key : Value) (change : Option β → β) :
    alter key change entries = match entries.place? key with
      | some place => entries.modify place fun entry => (entry.1, change (some entry.2))
      | none => entries ++ [(key, change none)] := by
  induction entries with
  | nil => rfl
  | cons entry rest ih =>
    unfold alter
    cases h : entry.1.same key
    · rw [place?, List.findIdx?_cons, ← place?]
      simp only [h, Bool.false_eq_true, if_false, ih]
      cases place? rest key <;> rfl
    · simp [place?, List.findIdx?_cons, h]

theorem place?_modify (entries : Keyed β) (place : Nat) (change : β → β) (key : Value) :
    place? (entries.modify place fun entry => (entry.1, change entry.2)) key =
      entries.place? key := by
  induction entries generalizing place with
  | nil => simp
  | cons entry rest ih =>
    cases place with
    | zero => simp [place?, List.findIdx?_cons]
    | succ place =>
      have := ih place
      simp only [place?] at this
      simp [place?, List.findIdx?_cons, this]

theorem place?_append (entries : Keyed β) (last : Value × β) (key : Value) :
    place? (entries ++ [last]) key =
      (entries.place? key).or (if last.1.same key then some entries.length else none) := by
  simp only [place?, List.findIdx?_append, List.findIdx?_singleton]
  split <;> simp

end Keyed

/-- Entries in the making, with the place of every key. -/
structure Filing (β : Type) where
  entries : Array (Value × β)
  places : Lookup Nat
  places_eq : ∀ key, places.get? key = Keyed.place? entries.toList key

namespace Filing

def empty : Filing β := ⟨#[], .empty, fun key => by
  simp [Lookup.get?, Lookup.bucket, Lookup.empty, Keyed.get?, Keyed.place?]⟩

def toKeyed (filing : Filing β) : Keyed β := filing.entries.toList

def keys (filing : Filing β) : List Value := filing.toKeyed.keys

def size (filing : Filing β) : Nat := filing.entries.size

def key? (filing : Filing β) (place : Nat) : Option Value := filing.entries[place]?.map (·.1)

def place? (filing : Filing β) (key : Value) : Option Nat := filing.places.get? key

def has (filing : Filing β) (key : Value) : Bool := (filing.place? key).isSome

theorem has_eq (filing : Filing β) (key : Value) : filing.has key = filing.toKeyed.has key := by
  rw [Bool.eq_iff_iff, has, place?, filing.places_eq, Keyed.place?, List.findIdx?_isSome, Keyed.has,
    Keyed.get?, Option.isSome_map, List.find?_isSome, List.any_eq_true, toKeyed]

def alter (key : Value) (change : Option β → β) : Filing β → Filing β
  | ⟨entries, places, places_eq⟩ =>
    match places.get? key with
    | some place =>
      ⟨entries.modify place fun entry => (entry.1, change (some entry.2)), places, fun other => by
        rw [places_eq, Array.toList_modify, Keyed.place?_modify _ _ fun b => change (some b)]⟩
    | none =>
      let place := entries.size
      ⟨entries.push (key, change none), places.add (key, place), fun other => by
        rw [Lookup.get?_add, places_eq, Array.toList_push, Keyed.place?_append]; rfl⟩

theorem toKeyed_alter (filing : Filing β) (key : Value) (change : Option β → β) :
    (filing.alter key change).toKeyed = Keyed.alter key change filing.toKeyed := by
  obtain ⟨entries, places, places_eq⟩ := filing
  rw [Keyed.alter_eq]
  simp only [toKeyed, alter, ← places_eq]
  cases places.get? key <;> simp

end Filing

namespace Keyed

/-- All data filed in turn, each under its key and joined to what is there already. -/
def gather (join : α → Option β → β) (pairs : List (Value × α)) : Keyed β :=
  (pairs.foldl (fun filing pair => filing.alter pair.1 (join pair.2)) Filing.empty).toKeyed

theorem foldl_alter (join : α → Option β → β) (pairs : List (Value × α)) (filing : Filing β) :
    (pairs.foldl (fun filing pair => filing.alter pair.1 (join pair.2)) filing).toKeyed =
      pairs.foldl (fun entries pair => alter pair.1 (join pair.2) entries) filing.toKeyed := by
  induction pairs generalizing filing with
  | nil => rfl
  | cons pair rest ih => rw [List.foldl_cons, List.foldl_cons, ih, Filing.toKeyed_alter]

/-- The outcome of filing one datum after the other by search. -/
theorem gather_eq (join : α → Option β → β) (pairs : List (Value × α)) :
    gather join pairs =
      pairs.foldl (fun entries pair => alter pair.1 (join pair.2) entries) [] :=
  foldl_alter join pairs .empty

/-- All pairs filed in turn, the last datum of a repeated key staying. -/
def ofPairs (pairs : List (Value × β)) : Keyed β := gather (fun datum _ => datum) pairs

theorem ofPairs_eq (pairs : List (Value × β)) :
    ofPairs pairs = pairs.foldl (fun entries pair => put entries pair.1 pair.2) [] :=
  gather_eq _ pairs

def group (pairs : List (Value × α)) : Keyed (List α) :=
  mapData List.reverse (gather (fun datum data => datum :: data.getD []) pairs)

theorem mapData_reverse_alter (key : Value) (datum : α) (entries : Keyed (List α)) :
    mapData List.reverse (entries.alter key fun data => datum :: data.getD []) =
      (mapData List.reverse entries).alter key fun data => data.getD [] ++ [datum] := by
  induction entries with
  | nil => rfl
  | cons entry rest ih =>
    simp only [mapData] at ih
    simp only [mapData, alter, List.map_cons]
    split <;> simp [ih]

/-- The outcome of appending each datum to those under its key. -/
theorem group_eq (pairs : List (Value × α)) :
    group pairs =
      pairs.foldl (fun entries pair => alter pair.1 (·.getD [] ++ [pair.2]) entries) [] := by
  have steps : ∀ entries : Keyed (List α),
      mapData List.reverse (pairs.foldl
          (fun entries pair => alter pair.1 (pair.2 :: ·.getD []) entries) entries) =
        pairs.foldl (fun entries pair => alter pair.1 (·.getD [] ++ [pair.2]) entries)
          (mapData List.reverse entries) := by
    induction pairs with
    | nil => exact fun _ => rfl
    | cons pair rest ih =>
      intro entries
      rw [List.foldl_cons, List.foldl_cons, ih, mapData_reverse_alter]
  rw [group, gather_eq]
  exact steps []

end Keyed

/-- Different values in a row, each found without a search. -/
abbrev Roster := Filing Unit

namespace Roster

def add (roster : Roster) (v : Value) : Roster := roster.alter v fun _ => ()

theorem keys_add (roster : Roster) (v : Value) :
    (add roster v).keys = if roster.has v then roster.keys else roster.keys ++ [v] := by
  rw [add, Filing.keys, Filing.toKeyed_alter, Filing.has_eq]
  split <;> rename_i h
  · exact Keyed.keys_alter h _
  · rw [Keyed.alter_of_not_has (by simpa using h)]
    simp [Filing.keys, Keyed.keys]

def ofList (values : List Value) : Roster := values.foldl add .empty

end Roster

def Value.distinct (values : List Value) : List Value := (Roster.ofList values).keys

end Matchmaking
