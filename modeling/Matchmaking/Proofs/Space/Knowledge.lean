import Matchmaking.Proofs.Space.Restriction

/-! Which restrictions a table knows: those that name its own collections and list elements of them only. Just
these narrow a view. Any other is refused for a name or an element that is unknown, if it can be looked through
and what it is refused for can be written. -/
namespace Matchmaking

namespace Failure

def IsUnknown (failure : Failure) : Prop := failure.settle.kind = .unknownElement

instance (failure : Failure) : Decidable failure.IsUnknown := inferInstanceAs (Decidable (_ = _))

theorem isUnknown_of_sentence {failure : Failure} (kind : failure.kind = .unknownElement)
    (written : ∃ sentence, failure.sentence = .ok sentence) : failure.IsUnknown := by
  obtain ⟨sentence, written⟩ := written
  rw [IsUnknown, settle, written]
  exact kind

theorem shown_eq_ok {v : Value} {s : String} (written : v.shown? = some s) : shown v = .ok s := by
  rw [shown, written]

theorem quoted_eq_ok {v : Value} {s : String} (written : v.quoted? = some s) : quoted v = .ok s := by
  rw [quoted, written]

end Failure

namespace Table

variable {table : Table} {restriction : Keyed Value} {collection : Value × Roster} {v : Value}

def IsNamed (table : Table) : Prop := ∀ name ∈ table.names, ∃ s, name = .text s

def holds (collection : Value × Roster) (v : Value) : Bool := collection.2.keys.any (·.same v)

/-- A restriction that names collections of a table and lists nothing but elements of them. -/
structure Knows (table : Table) (restriction : Keyed Value) : Prop where
  names : ∀ name ∈ restriction.keys, ∃ collection ∈ table.collections, collection.1.same name = true
  elements : ∀ collection ∈ table.collections, ∀ v, table.given restriction collection.1 = some v →
    ∀ meant ∈ v.standsFor collection.2.keys, holds collection meant = true

/-- A restriction whose names can be looked up and written, and whose elements can be listed and written. -/
structure Reads (table : Table) (restriction : Keyed Value) : Prop where
  keys : ∀ name ∈ restriction.keys, name.isKey = true ∧ ∃ s, name.shown? = some s
  lists : ∀ collection ∈ table.collections, ∀ v, table.given restriction collection.1 = some v →
    holds collection v = true ∨ v.isSingle = true ∨ ∃ items, v.items = .ok items
  elements : ∀ collection ∈ table.collections, ∀ v, table.given restriction collection.1 = some v →
    ∀ meant ∈ v.standsFor collection.2.keys, ∃ s, meant.quoted? = some s

/-- A restriction whose elements can be listed, as those of a range with `Value.listLimit` numbers cannot, and of
whose names and elements those that are unknown can be written. -/
structure Spells (table : Table) (restriction : Keyed Value) : Prop where
  names : ∀ name ∈ restriction.keys,
    (∃ collection ∈ table.collections, collection.1.same name = true) ∨ ∃ s, name.shown? = some s
  lists : ∀ collection ∈ table.collections, ∀ v, table.given restriction collection.1 = some v →
    holds collection v = true ∨ v.isSingle = true ∨ ∃ items, v.items = .ok items
  elements : ∀ collection ∈ table.collections, ∀ v, table.given restriction collection.1 = some v →
    ∀ meant ∈ v.standsFor collection.2.keys, holds collection meant = true ∨ ∃ s, meant.quoted? = some s

theorem Reads.spells (reads : table.Reads restriction) : table.Spells restriction where
  names name held := .inr (reads.keys name held).2
  lists := reads.lists
  elements collection inside v given meant among := .inr (reads.elements collection inside v given meant among)

theorem Knows.spells (knows : table.Knows restriction)
    (lists : ∀ collection ∈ table.collections, ∀ v, table.given restriction collection.1 = some v →
      holds collection v = true ∨ v.isSingle = true ∨ ∃ items, v.items = .ok items) : table.Spells restriction where
  names name held := .inl (knows.names name held)
  lists := lists
  elements collection inside v given meant among := .inl (knows.elements collection inside v given meant among)

theorem listed_names (named : table.IsNamed) : ∃ s, Failure.listed table.names = .ok s := by
  have texts : ∀ name ∈ table.names, ∃ s, name.text? = some s := by
    intro name member
    obtain ⟨s, rfl⟩ := named name member
    exact ⟨s, rfl⟩
  obtain ⟨written, found⟩ : ∃ written, table.names.mapM Value.text? = some written := by
    generalize table.names = names at texts ⊢
    induction names with
    | nil => exact ⟨[], rfl⟩
    | cons name rest ih =>
      obtain ⟨⟨s, first⟩, others⟩ := List.forall_mem_cons.mp texts
      obtain ⟨written, found⟩ := ih others
      exact ⟨s :: written, by simp [first, found]⟩
  exact ⟨_, by rw [Failure.listed, found]⟩

theorem checkName_decides (sound : table.Sound) (named : table.IsNamed) {name : Value} (key : name.isKey = true)
    (written : (∃ collection ∈ table.collections, collection.1.same name = true) ∨ ∃ s, name.shown? = some s) :
    Decides (table.checkName name) (∃ collection ∈ table.collections, collection.1.same name = true)
      Failure.IsUnknown := by
  have looked := Value.asKey_eq_ok.mpr ⟨key, rfl⟩
  cases found : table.collections.get? name with
  | some roster =>
    obtain ⟨other, member, same⟩ := (Keyed.get?_eq_some sound.names).mp found
    have passed : table.checkName name = .ok () := by
      rw [checkName, collection, looked, ok_bind, found]
      rfl
    exact .inl ⟨⟨_, member, same⟩, (), passed⟩
  | none =>
    obtain ⟨options, listed⟩ := listed_names named
    have refused : table.checkName name = .error (.unknownCollection name table.names) := by
      rw [checkName, collection, looked, ok_bind, found]
      rfl
    have unknown : ¬∃ collection ∈ table.collections, collection.1.same name = true := by
      rintro ⟨⟨other, roster⟩, member, same⟩
      cases found.symm.trans ((Keyed.get?_eq_some sound.names).mpr ⟨other, member, same⟩)
    obtain ⟨s, written⟩ := written.resolve_left unknown
    refine .inr ⟨unknown, _, refused, Failure.isUnknown_of_sentence rfl ?_⟩
    rw [Failure.sentence, listed, Failure.shown_eq_ok written]
    exact ⟨_, rfl⟩

theorem checkNames_decides (sound : table.Sound) (named : table.IsNamed) {names : List Value}
    (keys : ∀ name ∈ names, name.isKey = true)
    (written : ∀ name ∈ names,
      (∃ collection ∈ table.collections, collection.1.same name = true) ∨ ∃ s, name.shown? = some s) :
    Decides (table.checkNames names)
      (∀ name ∈ names, ∃ collection ∈ table.collections, collection.1.same name = true) Failure.IsUnknown := by
  induction names with
  | nil => exact Decides.ok.congr (by simp)
  | cons name rest ih =>
    obtain ⟨key, keys⟩ := List.forall_mem_cons.mp keys
    obtain ⟨first, others⟩ := List.forall_mem_cons.mp written
    rw [List.forall_mem_cons]
    exact (checkName_decides sound named key first).bind fun _ _ => ih keys others

theorem indexOf_decides (sound : table.Sound) (named : table.IsNamed) (member : collection ∈ table.collections)
    (written : holds collection v = true ∨ ∃ s, v.quoted? = some s) :
    Decides (table.indexOf collection.1 v) (holds collection v = true) Failure.IsUnknown := by
  have placed := isSome_place? (sound.elements _ member) v
  rw [holds, ← placed] at written ⊢
  cases found : place? collection.2 v with
  | some place =>
    have passed : table.indexOf collection.1 v = .ok place := by
      rw [indexOf, collection_of_mem sound member, ok_bind, found]
      rfl
    exact .inl ⟨rfl, place, passed⟩
  | none =>
    obtain ⟨name, equal⟩ := named collection.1 (List.mem_map_of_mem member)
    have refused : table.indexOf collection.1 v = .error (.notAnElement collection.1 v) := by
      rw [indexOf, collection_of_mem sound member, ok_bind, found]
    rw [found] at written
    obtain ⟨s, written⟩ := written.resolve_left Bool.false_ne_true
    refine .inr ⟨Bool.false_ne_true, _, refused, Failure.isUnknown_of_sentence rfl ?_⟩
    rw [Failure.sentence, Failure.quoted_eq_ok written, equal]
    exact ⟨_, rfl⟩

/-- What a value stands for is refused just if part of it is no element of the collection. -/
theorem wanted_decides (sound : table.Sound) (named : table.IsNamed) (member : collection ∈ table.collections)
    (lists : holds collection v = true ∨ v.isSingle = true ∨ ∃ items, v.items = .ok items)
    (written : ∀ meant ∈ v.standsFor collection.2.keys, holds collection meant = true ∨ ∃ s, meant.quoted? = some s) :
    Decides (table.wanted collection.1 v)
      (∀ meant ∈ v.standsFor collection.2.keys, holds collection meant = true) Failure.IsUnknown := by
  obtain ⟨values, read⟩ : ∃ values, table.meant collection.1 v = .ok values := by
    rw [meant_eq sound member]
    split
    · exact ⟨[v], rfl⟩
    · rename_i walked
      rw [Bool.or_eq_true, not_or] at walked
      exact (lists.resolve_left walked.1).resolve_left walked.2
  rw [← meant_eq_ok sound member read] at written ⊢
  rw [wanted, read, ok_bind]
  apply Decides.mapM
  rw [List.forall₂_same]
  intro meant inside
  exact (indexOf_decides sound named member (written meant inside)).bind_return

variable {entries : Keyed (List Value)}

theorem given_lists_iff (mapping : entries.IsMapping) {name : Value} :
    table.given (entries.mapData Value.list) name = some v ↔
      ∃ entry ∈ entries, entry.1.same name = true ∧ v = .list entry.2 := by
  rw [given_lists, Keyed.get?_mapData, Option.map_eq_some_iff]
  constructor
  · rintro ⟨elements, given, rfl⟩
    obtain ⟨other, listed, same⟩ := (Keyed.get?_eq_some mapping).mp given
    exact ⟨_, listed, same, rfl⟩
  · rintro ⟨⟨other, elements⟩, listed, same, rfl⟩
    exact ⟨elements, (Keyed.get?_eq_some mapping).mpr ⟨other, listed, same⟩, rfl⟩

theorem reads_lists (sound : table.Sound) (mapping : entries.IsMapping)
    (names : ∀ entry ∈ entries, ∃ s, entry.1.shown? = some s)
    (elements : ∀ entry ∈ entries, ∀ e ∈ entry.2, ∃ s, e.quoted? = some s) :
    table.Reads (entries.mapData Value.list) where
  keys name held := by
    rw [Keyed.keys_mapData] at held
    obtain ⟨entry, listed, rfl⟩ := List.mem_map.mp held
    exact ⟨mapping.keys _ held, names entry listed⟩
  lists collection inside v given := by
    obtain ⟨entry, -, -, rfl⟩ := (given_lists_iff mapping).mp given
    exact .inr (.inr ⟨entry.2, rfl⟩)
  elements collection inside v given meant among := by
    obtain ⟨entry, listed, -, rfl⟩ := (given_lists_iff mapping).mp given
    rw [standsFor_list sound inside] at among
    exact elements entry listed meant among

/-- Lists of elements are known just if each is one of elements of a collection. -/
theorem knows_lists (sound : table.Sound) (mapping : entries.IsMapping) :
    table.Knows (entries.mapData Value.list) ↔ ∀ entry ∈ entries, ∃ collection ∈ table.collections,
      collection.1.same entry.1 = true ∧ ∀ e ∈ entry.2, holds collection e = true := by
  constructor
  · intro knows entry listed
    have name : entry.1 ∈ Keyed.keys (entries.mapData Value.list) := by
      rw [Keyed.keys_mapData]
      exact List.mem_map_of_mem listed
    obtain ⟨collection, inside, same⟩ := knows.names entry.1 name
    have key := sound.names.keys _ (List.mem_map_of_mem inside)
    have given : table.given _ collection.1 = _ :=
      (given_lists_iff mapping).mpr ⟨entry, listed, Value.same_symm key same, rfl⟩
    have known := knows.elements collection inside _ given
    rw [standsFor_list sound inside] at known
    exact ⟨collection, inside, same, known⟩
  · intro each
    refine ⟨fun name held => ?_, fun collection inside v given => ?_⟩
    · rw [Keyed.keys_mapData] at held
      obtain ⟨entry, listed, rfl⟩ := List.mem_map.mp held
      obtain ⟨collection, inside, same, -⟩ := each entry listed
      exact ⟨collection, inside, same⟩
    · obtain ⟨entry, listed, same, rfl⟩ := (given_lists_iff mapping).mp given
      obtain ⟨other, inside', same', known⟩ := each entry listed
      have key := mapping.keys _ (List.mem_map_of_mem listed)
      cases sound.names.entry_unique inside inside' (Value.same_symm key same) same'
      rw [standsFor_list sound inside]
      exact known

end Table

namespace View

variable {view : View} {restriction : Keyed Value}

theorem subset_decides (sound : view.Sound) (named : view.table.IsNamed)
    (keys : ∀ name ∈ restriction.keys, name.isKey = true) (spells : view.table.Spells restriction) :
    Decides (view.subset restriction) (view.table.Knows restriction) Failure.IsUnknown := by
  have checked := Table.checkNames_decides sound.table named keys spells.names
  let known (collection : Value × Roster) : Prop := ∀ v, view.table.given restriction collection.1 = some v →
    ∀ meant ∈ v.standsFor collection.2.keys, Table.holds collection meant = true
  refine Decides.congr (P := _ ∧ ∀ collection ∈ view.table.collections, known collection)
    (checked.bind fun _ _ => (Decides.mapM ?_).bind_return)
    ⟨fun both => ⟨both.1, both.2⟩, fun knows => ⟨knows.names, knows.elements⟩⟩
  refine ((List.forall₂_and_left ..).mpr ⟨fun _ member => member, sound.axes⟩).flip.imp ?_
  rintro ⟨name, axis⟩ collection ⟨member, rfl, -⟩
  dsimp only
  cases given : view.table.given restriction collection.1 with
  | none => exact Decides.ok.congr (by simp [known, given])
  | some v =>
    have wanted := Table.wanted_decides sound.table named member (spells.lists _ member v given)
      (spells.elements _ member v given)
    exact wanted.bind_return.congr (by simp [known, given])

end View

end Matchmaking
