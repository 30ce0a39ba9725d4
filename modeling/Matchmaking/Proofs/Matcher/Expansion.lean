import Matchmaking.Matcher.Basic
import Matchmaking.Proofs.Space.Product
import Matchmaking.Proofs.Success
import Matchmaking.Proofs.Value.Grouping
import Matchmaking.Proofs.Value.Turn

/-! The restrictions that one with streams is expanded to: each choice of one item from every
stream, in the stream's place, and nothing else changed. -/
namespace Matchmaking.Matcher

/-- An item in the place of a stream, and anything else in its own. -/
def Selects (given picked : Value × Value) : Prop :=
  picked.1 = given.1 ∧ if given.2.isStream then ∃ item ∈ given.2.items?.getD [], picked.2 = .list [item]
    else picked.2 = given.2

/-- A restriction, read in turn, with each stream in it replaced by one of its items. -/
def Picks (restriction part : Keyed Value) : Prop := List.Forall₂ Selects (restriction.inTurn []) part

def streamed (entries : Keyed Value) : Keyed Value := entries.filter fun (_, v) => v.isStream

/-- The streams of a restriction, each with what is left of it in its turn. -/
def streams (restriction : Keyed Value) : Keyed Value := streamed (restriction.inTurn [])

/-- Puts single elements in the places of streams, one after the other. -/
def replace : Keyed Value → List Value → Keyed Value
  | [], _ => []
  | (name, v) :: rest, row =>
    if v.isStream then
      match row with
      | [] => (name, v) :: rest
      | item :: others => (name, .list [item]) :: replace rest others
    else (name, v) :: replace rest row

theorem selects_iff {entries part : Keyed Value} : List.Forall₂ Selects entries part ↔
    ∃ row, List.Forall₂ (fun item (entry : Value × Value) => item ∈ entry.2.items?.getD []) row
      (streamed entries) ∧ part = replace entries row := by
  induction entries generalizing part with
  | nil => simp [streamed, replace]
  | cons entry rest ih =>
    obtain ⟨name, v⟩ := entry
    rw [List.forall₂_cons_left_iff]
    by_cases stream : v.isStream = true
    · have head : streamed ((name, v) :: rest) = (name, v) :: streamed rest := by simp [streamed, stream]
      rw [head]
      constructor
      · rintro ⟨⟨_, _⟩, others, ⟨rfl, picked⟩, picks, rfl⟩
        obtain ⟨item, member, rfl⟩ := (if_pos stream).mp picked
        obtain ⟨row, items, rfl⟩ := ih.mp picks
        exact ⟨item :: row, .cons member items, by simp [replace, stream]⟩
      · rintro ⟨row, items, rfl⟩
        cases items with
        | @cons item _ row _ member items =>
          refine ⟨(name, .list [item]), replace rest row, ⟨rfl, ?_⟩, ih.mpr ⟨row, items, rfl⟩, ?_⟩
          · rw [if_pos stream]
            exact ⟨item, member, rfl⟩
          · simp [replace, stream]
    · have head : streamed ((name, v) :: rest) = streamed rest := by simp [streamed, stream]
      rw [head]
      constructor
      · rintro ⟨⟨_, _⟩, others, ⟨rfl, picked⟩, picks, rfl⟩
        rw [if_neg stream] at picked
        obtain ⟨row, items, rfl⟩ := ih.mp picks
        cases picked
        exact ⟨row, items, by simp [replace, stream]⟩
      · rintro ⟨row, items, rfl⟩
        refine ⟨(name, v), replace rest row, ⟨rfl, by rw [if_neg stream]⟩, ih.mpr ⟨row, items, rfl⟩, ?_⟩
        simp [replace, stream]

/-- Putting data under other names leaves an entry and changes the ones behind it. -/
theorem foldl_put_cons {names row : List Value} {entry : Value × Value} {rest : Keyed Value}
    (apart : ∀ name ∈ names, entry.1.same name = false) :
    (names.zip row).foldl (fun spec (name, element) => Keyed.put spec name (.list [element])) (entry :: rest) =
      entry :: (names.zip row).foldl (fun spec (name, element) => Keyed.put spec name (.list [element])) rest := by
  induction names generalizing row rest with
  | nil => rfl
  | cons name names ih =>
    cases row with
    | nil => rfl
    | cons item row =>
      obtain ⟨first, others⟩ := List.forall_mem_cons.mp apart
      have step : Keyed.put (entry :: rest) name (.list [item]) = entry :: Keyed.put rest name (.list [item]) := by
        simp [Keyed.put, Keyed.alter, first]
      simp only [List.zip_cons_cons, List.foldl_cons, step]
      exact ih others

theorem foldl_put {entries : Keyed Value} (mapping : entries.IsMapping) {row : List Value}
    (length : row.length = (streamed entries).length) :
    ((streamed entries).keys.zip row).foldl
      (fun spec (name, element) => Keyed.put spec name (.list [element])) entries =
        replace entries row := by
  induction entries generalizing row with
  | nil => simp [streamed, replace, Keyed.keys]
  | cons entry rest ih =>
    obtain ⟨name, v⟩ := entry
    have key : name.isKey = true := mapping.keys name (by simp [Keyed.keys])
    have others : Keyed.IsMapping rest := ⟨fun other member => mapping.keys other
      (List.mem_cons_of_mem _ member), (List.pairwise_cons.mp mapping.apart).2⟩
    have apart : ∀ other ∈ (streamed rest).keys, name.same other = false := by
      intro other member
      obtain ⟨found, inside, rfl⟩ := List.mem_map.mp member
      exact (List.pairwise_cons.mp mapping.apart).1 _
        (List.mem_map.mpr ⟨found, List.mem_of_mem_filter inside, rfl⟩)
    by_cases stream : v.isStream = true
    · have head : streamed ((name, v) :: rest) = (name, v) :: streamed rest := by simp [streamed, stream]
      rw [head] at length ⊢
      cases row with
      | nil => simp at length
      | cons item row =>
        have first : Keyed.put ((name, v) :: rest) name (.list [item]) = (name, .list [item]) :: rest := by
          simp [Keyed.put, Keyed.alter, Value.same_refl key]
        simp only [Keyed.keys, List.map_cons, List.zip_cons_cons, List.foldl_cons, first]
        rw [← Keyed.keys, foldl_put_cons apart, ih others (by simpa using length)]
        simp [replace, stream]
    · have head : streamed ((name, v) :: rest) = streamed rest := by simp [streamed, stream]
      rw [head] at length ⊢
      rw [foldl_put_cons apart, ih others length]
      simp [replace, stream]

theorem mem_expand {restriction part : Keyed Value} (mapping : restriction.IsMapping) :
    part ∈ expand restriction ↔ Picks restriction part := by
  have unfolded : expand restriction = if (streams restriction).isEmpty then [restriction.inTurn []]
      else (tuples ((streams restriction).map fun (_, v) => v.items?.getD [])).map fun row =>
        ((streams restriction).keys.zip row).foldl
          (fun spec (name, element) => Keyed.put spec name (.list [element])) (restriction.inTurn []) := rfl
  have mapping : (restriction.inTurn []).IsMapping := mapping.inTurn
  rw [unfolded, Picks, selects_iff, ← streams]
  by_cases none : streams restriction = []
  · have nothing : ([] : List Value).length = (streams restriction).length := by simp [none]
    have same := foldl_put mapping nothing
    simp [none, ← same, Keyed.keys]
  · have some : (streams restriction).map (fun x : Value × Value => x.2.items?.getD []) ≠ [] := by
      simpa using none
    rw [if_neg (by simpa using none), List.mem_map]
    refine exists_congr fun row => ?_
    rw [mem_tuples, List.forall₂_map_right_iff]
    constructor
    · rintro ⟨⟨-, items⟩, rfl⟩
      exact ⟨items, foldl_put mapping items.length_eq⟩
    · rintro ⟨items, rfl⟩
      exact ⟨⟨some, items⟩, foldl_put mapping items.length_eq⟩

/-- All items of each stream in the stream's place. -/
def spread (restriction : Keyed Value) : Keyed Value :=
  (restriction.inTurn []).mapData fun v => if v.isStream then .list (v.items?.getD []) else v

variable {restriction part : Keyed Value} {name v : Value}

theorem Picks.keys (picks : Picks restriction part) : part.keys = (spread restriction).keys := by
  rw [spread, Keyed.keys_mapData]
  exact (Keyed.keys_eq_of_forall₂ picks fun _ _ step => step.1.symm).symm

theorem Picks.lasting (picks : Picks restriction part) : ∀ entry ∈ part, entry.2.isStream = false := by
  intro entry member
  obtain ⟨given, -, -, picked⟩ := exists_of_mem_right picks member
  split at picked
  · obtain ⟨item, -, equal⟩ := picked
    rw [equal]
    rfl
  · rename_i single
    rw [picked]
    exact Bool.eq_false_iff.mpr single

theorem spread_lasting (restriction : Keyed Value) : ∀ entry ∈ spread restriction, entry.2.isStream = false := by
  intro entry member
  obtain ⟨v, -, equal⟩ := Keyed.mem_mapData.mp member
  rw [← equal]
  split
  · rfl
  · exact Bool.eq_false_iff.mpr ‹_›

/-- What a part gives for a name is one of the items that are given there, or all that is given there. -/
theorem Picks.get? (picks : Picks restriction part) (given : part.get? name = some v) :
    (∃ items item, (spread restriction).get? name = some (.list items) ∧ item ∈ items ∧ v = .list [item]) ∨
      (spread restriction).get? name = some v := by
  obtain ⟨whole, found, picked⟩ := Keyed.get?_of_forall₂ (R := fun whole v : Value =>
    if whole.isStream then ∃ item ∈ whole.items?.getD [], v = .list [item] else v = whole) picks given
  rw [spread, Keyed.get?_mapData, found, Option.map_some]
  split at picked
  · rename_i stream
    obtain ⟨item, member, rfl⟩ := picked
    exact .inl ⟨_, item, by rw [if_pos stream], member, rfl⟩
  · rename_i single
    rw [if_neg single, picked]
    exact .inr rfl

/-- Unless a stream is empty there is a choice of items, and any item may be chosen from the streams that have it. -/
theorem exists_picks (some : ∀ entry ∈ streams restriction, entry.2.items?.getD [] ≠ []) (item : Value) :
    ∃ part, Picks restriction part ∧ ∀ name v, (spread restriction).get? name = .some v →
      part.get? name = .some v ∨ ∃ items, v = .list items ∧
        (item ∈ items → part.get? name = .some (.list [item])) := by
  have each : ∀ entry ∈ restriction.inTurn [], ∃ picked : Value × Value, picked.1 = entry.1 ∧
      if entry.2.isStream then (∃ i ∈ entry.2.items?.getD [], picked.2 = .list [i]) ∧
        (item ∈ entry.2.items?.getD [] → picked.2 = .list [item])
      else picked.2 = entry.2 := by
    intro entry member
    by_cases stream : entry.2.isStream = true
    · simp only [stream, if_true]
      by_cases wanted : item ∈ entry.2.items?.getD []
      · exact ⟨(entry.1, .list [item]), rfl, ⟨item, wanted, rfl⟩, fun _ => rfl⟩
      · obtain ⟨i, inside⟩ := List.exists_mem_of_ne_nil _ (some entry (List.mem_filter.mpr ⟨member, stream⟩))
        exact ⟨(entry.1, .list [i]), rfl, ⟨i, inside, rfl⟩, fun held => absurd held wanted⟩
    · exact ⟨entry, rfl, by rw [if_neg stream]⟩
  obtain ⟨part, related⟩ := exists_forall₂ each
  refine ⟨part, ?_, fun name v given => ?_⟩
  · refine related.imp fun entry picked step => ?_
    obtain ⟨name, choice⟩ := step
    refine ⟨name, ?_⟩
    split
    · rename_i stream
      rw [if_pos stream] at choice
      exact choice.1
    · rename_i single
      rwa [if_neg single] at choice
  · rw [spread, Keyed.get?_mapData] at given
    obtain ⟨datum, found, rfl⟩ := Option.map_eq_some_iff.mp given
    obtain ⟨other, chosen, choice⟩ := Keyed.get?_of_forall₂_left
      (R := fun datum other : Value => if datum.isStream then (∃ i ∈ datum.items?.getD [], other = .list [i]) ∧
        (item ∈ datum.items?.getD [] → other = .list [item]) else other = datum) related found
    split
    · rename_i stream
      rw [if_pos stream] at choice
      exact .inr ⟨_, rfl, fun wanted => by rw [chosen, choice.2 wanted]⟩
    · rename_i single
      rw [if_neg single] at choice
      exact .inl (by rw [chosen, choice])

end Matchmaking.Matcher
