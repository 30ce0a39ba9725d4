import Matchmaking.Proofs.Success
import Matchmaking.Proofs.Value.Turn
import Matchmaking.Space.Table

/-! What a table keeps once it is built: its names are different, and so are the elements of
each collection. A name then finds its own collection, an element its own place, and a place
its own element. -/
namespace Matchmaking

theorem Value.asKey_eq_ok {v key : Value} : v.asKey = .ok key ↔ v.isKey = true ∧ v = key := by
  unfold asKey
  split <;> simp_all

namespace Roster

variable {roster : Roster}

theorem key?_eq (roster : Roster) (place : Nat) : roster.key? place = roster.keys[place]? := by
  simp [Filing.key?, Filing.keys, Filing.toKeyed, Keyed.keys]

theorem length_keys (roster : Roster) : roster.keys.length = roster.size := by
  simp [Filing.keys, Filing.toKeyed, Keyed.keys, Filing.size]

theorem place?_eq_some (different : Value.Different roster.keys) {v : Value} {i : Nat} :
    roster.place? v = some i ↔ ∃ e, roster.keys[i]? = some e ∧ e.same v = true := by
  rw [Filing.place?, roster.places_eq]
  have mapping : Keyed.IsMapping roster.entries.toList := different
  rw [Keyed.place?_eq_some mapping]
  constructor
  · rintro ⟨bound, same⟩
    exact ⟨_, by simp [Filing.keys, Filing.toKeyed, Keyed.keys, List.getElem?_eq_getElem bound], same⟩
  · rintro ⟨e, found, same⟩
    obtain ⟨bound, rfl⟩ := List.getElem?_eq_some_iff.mp found
    exact ⟨by simpa [Filing.keys, Filing.toKeyed, Keyed.keys] using bound,
      by simpa [Filing.keys, Filing.toKeyed, Keyed.keys] using same⟩

end Roster

namespace Table

variable {table : Table} {name : Value} {roster : Roster}

/-- A table without repetitions. -/
structure Sound (table : Table) : Prop where
  names : table.collections.IsMapping
  elements : ∀ entry ∈ table.collections, Value.Different entry.2.keys

theorem enroll_eq_ok {elements : List Value} {result : Roster} (different : Value.Different roster.keys)
    (built : enroll name roster elements = .ok result) :
    result.keys = roster.keys ++ elements ∧ Value.Different result.keys := by
  induction elements generalizing roster with
  | nil =>
    cases built
    exact ⟨by simp, different⟩
  | cons element rest ih =>
    obtain ⟨key, isKey, built⟩ := bind_eq_ok.mp built
    obtain ⟨key', rfl⟩ := Value.asKey_eq_ok.mp isKey
    split at built
    · cases built
    · rename_i fresh
      have keys : (Roster.add roster element).keys = roster.keys ++ [element] := by
        rw [Roster.keys_add, if_neg fresh]
      have apart : ∀ other ∈ roster.keys, other.same element = false := fun other member =>
        Bool.eq_false_iff.mpr fun same => fresh (Roster.has_iff.mpr ⟨other, member, same⟩)
      obtain ⟨all, different⟩ := ih (keys ▸ different.append_single key' apart) built
      exact ⟨by simp [all, keys], different⟩

theorem enroll_ok (name : Value) {elements : List Value} (different : Value.Different (roster.keys ++ elements)) :
    ∃ result, enroll name roster elements = .ok result := by
  induction elements generalizing roster with
  | nil => exact ⟨roster, rfl⟩
  | cons element rest ih =>
    have key : element.isKey = true := different.keys element (by simp)
    have fresh : ¬roster.has element = true := by
      rw [Roster.has_iff]
      rintro ⟨other, member, same⟩
      have apart := (List.pairwise_append.mp different.apart).2.2 other member element
        List.mem_cons_self
      simp [same] at apart
    have keys : (Roster.add roster element).keys = roster.keys ++ [element] := by
      rw [Roster.keys_add, if_neg fresh]
    have others : Value.Different ((Roster.add roster element).keys ++ rest) := by
      simpa [keys] using different
    obtain ⟨result, enrolled⟩ := ih others
    exact ⟨result, by simp [enroll, Value.asKey, key, fresh, enrolled]⟩

/-- A built table has the given collections with the given elements, in order. -/
theorem build_eq_ok {collections : Keyed Value} (built : build collections = .ok table) :
    List.Forall₂ (fun (given : Value × Value) (entry : Value × Roster) => entry.1 = given.1 ∧
      given.2.items = .ok entry.2.keys ∧ Value.Different entry.2.keys) (collections.inTurn []) table.collections := by
  obtain ⟨listed, found, rfl⟩ : ∃ listed, (collections.inTurn []).mapM (fun given => do
      return (given.1, ← enroll given.1 .empty (← given.2.items))) = .ok listed ∧ table = ⟨listed⟩ := by
    obtain ⟨listed, found, equal⟩ := bind_eq_ok.mp built
    exact ⟨listed, found, by simpa [eq_comm] using equal⟩
  refine (mapM_eq_ok.mp found).imp fun given entry step => ?_
  obtain ⟨items, read, step⟩ := bind_eq_ok.mp step
  obtain ⟨roster, enrolled, step⟩ := bind_eq_ok.mp step
  cases step
  have none : Value.Different (Filing.keys (.empty : Roster)) := .nil
  obtain ⟨keys, different⟩ := enroll_eq_ok none enrolled
  exact ⟨rfl, by rw [keys]; exact read, different⟩

theorem shape_of_single {table : Table} {name given : Value} {items : List Value} (read : given.items = .ok items)
    (listed : List.Forall₂ (fun (given : Value × Value) (entry : Value × Roster) => entry.1 = given.1 ∧
      given.2.items = .ok entry.2.keys) [(name, given)] table.collections) :
    ∃ roster : Roster, table.collections = [(name, roster)] ∧ roster.keys = items := by
  rw [List.forall₂_cons_left_iff] at listed
  obtain ⟨⟨name, roster⟩, others, ⟨rfl, found⟩, rest, shape⟩ := listed
  cases rest
  exact ⟨roster, shape, Except.ok.inj (found.symm.trans read)⟩

theorem build_ok {collections : Keyed Value}
    (different : ∀ given ∈ collections.inTurn [], ∃ items, given.2.items = .ok items ∧ Value.Different items) :
    ∃ table, build collections = .ok table := by
  have each : ∀ given ∈ collections.inTurn [], ∃ entry : Value × Roster,
      (do return (given.1, ← enroll given.1 .empty (← given.2.items)) : Except Failure _) = .ok entry := by
    intro given member
    obtain ⟨items, read, different⟩ := different given member
    have others : Value.Different (Filing.keys (.empty : Roster) ++ items) := different
    obtain ⟨roster, enrolled⟩ := enroll_ok given.1 others
    exact ⟨(given.1, roster), by simp [read, enrolled]⟩
  obtain ⟨listed, found⟩ := exists_forall₂ each
  exact ⟨⟨listed⟩, by rw [build, bind_eq_ok]; exact ⟨listed, mapM_eq_ok.mpr found, rfl⟩⟩

theorem exists_single (name : Value) (items : List Value) (different : Value.Different items) :
    ∃ (table : Table) (roster : Roster), build [(name, .list items)] = .ok table ∧
      table.collections = [(name, roster)] ∧ roster.keys = items := by
  have single : ∀ given ∈ Keyed.inTurn [] [(name, Value.list items)], ∃ items, given.2.items = .ok items ∧ Value.Different items := by
    intro given member
    rw [List.mem_singleton.mp member]
    exact ⟨items, rfl, different⟩
  obtain ⟨table, built⟩ := build_ok single
  obtain ⟨roster, shape, keys⟩ := shape_of_single rfl ((build_eq_ok built).imp fun _ _ step => ⟨step.1, step.2.1⟩)
  exact ⟨table, roster, built, shape, keys⟩

theorem names_of_build {collections : Keyed Value} (built : build collections = .ok table) :
    table.names = collections.keys := by
  rw [← Keyed.keys_inTurn collections, names]
  exact (Keyed.keys_eq_of_forall₂ (build_eq_ok built) fun _ _ step => step.1.symm).symm

theorem sound_of_build {collections : Keyed Value} (mapping : collections.IsMapping)
    (built : build collections = .ok table) : table.Sound := by
  refine ⟨by rwa [Keyed.IsMapping, ← names, names_of_build built], fun entry member => ?_⟩
  obtain ⟨given, -, -, -, different⟩ := exists_of_mem_right (build_eq_ok built) member
  exact different

theorem collection_of_mem (sound : table.Sound) (member : (name, roster) ∈ table.collections) :
    table.collection name = .ok roster := by
  have key : name.isKey = true := sound.names.keys name (List.mem_map.mpr ⟨_, member, rfl⟩)
  simp [collection, Value.asKey, key, Keyed.get?_of_mem sound.names member]

theorem known_of_collection (sound : table.Sound) {found : Roster}
    (looked : table.collection name = .ok found) :
    ∃ entry ∈ table.collections, entry.1.same name = true := by
  obtain ⟨key, isKey, looked⟩ := bind_eq_ok.mp looked
  obtain ⟨-, rfl⟩ := Value.asKey_eq_ok.mp isKey
  split at looked
  · rename_i given
    obtain ⟨other, member, same⟩ := (Keyed.get?_eq_some sound.names).mp given
    exact ⟨_, member, same⟩
  · cases looked

theorem known_of_hasName (held : table.hasName name = .ok true) :
    name.isKey = true ∧ ∃ entry ∈ table.collections, entry.1.same name = true := by
  obtain ⟨key, isKey, held⟩ := bind_eq_ok.mp held
  obtain ⟨key', rfl⟩ := Value.asKey_eq_ok.mp isKey
  have found : table.collections.has name = true := by simpa using held
  obtain ⟨other, member, same⟩ := Keyed.has_iff.mp found
  obtain ⟨entry, inside, rfl⟩ := List.mem_map.mp member
  exact ⟨key', entry, inside, same⟩

theorem known_of_checkNames (sound : table.Sound) {names : List Value}
    (checked : table.checkNames names = .ok ()) :
    ∀ name ∈ names, ∃ entry ∈ table.collections, entry.1.same name = true := by
  induction names with
  | nil => simp
  | cons name rest ih =>
    obtain ⟨_, first, checked⟩ := bind_eq_ok.mp checked
    obtain ⟨found, looked, -⟩ := bind_eq_ok.mp first
    exact List.forall_mem_cons.mpr ⟨known_of_collection sound looked, ih checked⟩

theorem place?_eq_some (different : Value.Different roster.keys) {v : Value} {i : Nat} :
    place? roster v = some i ↔ ∃ e, roster.keys[i]? = some e ∧ e.same v = true := by
  rw [← Roster.place?_eq_some different, place?]
  split
  · rfl
  · rename_i key
    rw [Roster.place?_eq_some different]
    refine iff_of_false (by simp) ?_
    rintro ⟨e, found, same⟩
    exact key (Value.isKey_of_same (different.keys e (List.mem_of_getElem? found)) same)

theorem isSome_place? (different : Value.Different roster.keys) (v : Value) :
    (place? roster v).isSome = roster.keys.any (·.same v) := by
  rw [Bool.eq_iff_iff, Option.isSome_iff_exists, List.any_eq_true]
  simp only [place?_eq_some different]
  constructor
  · rintro ⟨i, e, found, same⟩
    exact ⟨e, List.mem_of_getElem? found, same⟩
  · rintro ⟨e, member, same⟩
    obtain ⟨i, found⟩ := List.getElem?_of_mem member
    exact ⟨i, e, found, same⟩

theorem given_of_lasting {restriction : Keyed Value} (lasting : ∀ entry ∈ restriction, entry.2.isStream = false)
    (name : Value) : table.given restriction name = restriction.get? name := by
  rw [given]
  cases found : restriction.get? name with
  | none => rfl
  | some v => rw [Option.map_some, Value.behind_of_not_isStream (Keyed.isStream_of_get? lasting found)]

theorem indexOf_eq_ok (sound : table.Sound) (member : (name, roster) ∈ table.collections)
    {v : Value} {i : Nat} :
    table.indexOf name v = .ok i ↔ ∃ e, roster.keys[i]? = some e ∧ e.same v = true := by
  rw [← place?_eq_some (sound.elements _ member), indexOf, collection_of_mem sound member, ok_bind]
  cases place? roster v <;> simp

theorem elementAt_eq_ok (sound : table.Sound) (member : (name, roster) ∈ table.collections)
    {p : Int} {e : Value} :
    table.elementAt name p = .ok e ↔ 0 ≤ p ∧ roster.keys[p.toNat]? = some e := by
  rw [elementAt, collection_of_mem sound member, ok_bind, Roster.key?_eq]
  by_cases nonneg : 0 ≤ p
  · cases roster.keys[p.toNat]? <;> simp [nonneg]
  · simp [nonneg]

end Table

end Matchmaking
