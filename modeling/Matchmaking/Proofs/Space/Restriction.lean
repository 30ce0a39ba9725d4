import Matchmaking.Proofs.Space.Rows
import Matchmaking.Proofs.Value.Grouping

/-! What a restriction means, said of elements alone: a row lies in it if each element that it
restricts is among those meant for its collection. Narrowing a view by a restriction leaves it
those of its rows that lie in it. -/
namespace Matchmaking

namespace Value

/-- What is never walked through on an axis. -/
def isSingle : Value → Bool
  | .bytes _ => true
  | v => v.isText || !v.isRow

/-- The elements that a value stands for beside those of a collection: itself if it is one of
them or is not walked through, and else its items. -/
def standsFor (elements : List Value) (v : Value) : List Value :=
  if elements.any (·.same v) || v.isSingle then [v] else v.items?.getD []

theorem items?_of_items {v : Value} {items : List Value} (read : v.items = .ok items) :
    v.items? = some items := by
  unfold Value.items at read
  split at read
  · rename_i start stop step
    obtain ⟨length, -, read⟩ := bind_eq_ok.mp read
    split at read
    · cases read
    · cases read
      rfl
  · unfold orWrongKind at read
    split at read
    · cases read
      assumption
    · cases read

end Value

namespace Table

variable {table : Table} {restriction : Keyed Value} {row : List Value}

/-- Whether an element is among those that a restriction gives for its collection, if it gives any. -/
def admits (table : Table) (restriction : Keyed Value) (collection : Value × Roster) (e : Value) : Bool :=
  match table.given restriction collection.1 with
  | none => true
  | some v => (v.standsFor collection.2.keys).any fun meant => e.same meant

/-- Whether a restriction admits every element of a row. -/
def lies (table : Table) (restriction : Keyed Value) (row : List Value) : Bool :=
  (table.collections.zip row).all fun (collection, e) => admits table restriction collection e

theorem meant_eq (sound : table.Sound) {collection : Value × Roster}
    (member : collection ∈ table.collections) (v : Value) :
    table.meant collection.1 v =
      if collection.2.keys.any (·.same v) || v.isSingle then .ok [v] else v.items := by
  have known : table.hasElement collection.1 v = .ok (collection.2.keys.any (·.same v)) := by
    simp only [Table.hasElement, collection_of_mem sound member,
      isSome_place? (sound.elements _ member)]
  unfold Table.meant
  rw [known]
  cases v <;> simp only [ok_bind, pure_eq_ok, Value.isSingle] <;>
    cases collection.2.keys.any _ <;> rfl

theorem meant_eq_ok (sound : table.Sound) {collection : Value × Roster}
    (member : collection ∈ table.collections) {v : Value} {values : List Value}
    (read : table.meant collection.1 v = .ok values) : values = v.standsFor collection.2.keys := by
  rw [meant_eq sound member] at read
  unfold Value.standsFor
  split at read
  · cases read
    rw [if_pos ‹_›]
  · rw [if_neg ‹_›, Value.items?_of_items read, Option.getD_some]

theorem mem_wanted (sound : table.Sound) {collection : Value × Roster}
    (member : collection ∈ table.collections) {v : Value} {wanted : List Int}
    (read : table.wanted collection.1 v = .ok wanted) {p : Int} {e : Value} (nonneg : 0 ≤ p)
    (found : collection.2.keys[p.toNat]? = some e) :
    p ∈ wanted ↔ (v.standsFor collection.2.keys).any (fun meant => e.same meant) = true := by
  obtain ⟨values, meant, read⟩ := bind_eq_ok.mp read
  rw [← meant_eq_ok sound member meant, List.any_eq_true]
  have related : List.Forall₂ (fun v (p : Int) => ∃ e, 0 ≤ p ∧ collection.2.keys[p.toNat]? = some e ∧
      e.same v = true) values wanted := by
    refine (mapM_eq_ok.mp read).imp fun v p step => ?_
    obtain ⟨i, place, step⟩ := bind_eq_ok.mp step
    cases step
    obtain ⟨e, found, same⟩ := (indexOf_eq_ok sound member).mp place
    exact ⟨e, Int.natCast_nonneg i, found, same⟩
  have different := sound.elements _ member
  constructor
  · intro inside
    obtain ⟨v, listed, e', _, found', same⟩ := exists_of_mem_right related inside
    cases found.symm.trans found'
    exact ⟨v, listed, same⟩
  · rintro ⟨v, listed, same⟩
    obtain ⟨q, inside, e', nonneg', found', same'⟩ := exists_of_mem_right related.flip listed
    have first := (place?_eq_some different).mpr ⟨e, found, same⟩
    have second := (place?_eq_some different).mpr ⟨e', found', same'⟩
    have places : p.toNat = q.toNat := by simpa [first] using second
    rwa [show p = q by omega]

theorem mem_collections_of_mem_zip {x : (Value × Roster) × Value}
    (member : x ∈ table.collections.zip row) : x.1 ∈ table.collections :=
  (List.of_mem_zip (show (x.1, x.2) ∈ _ from member)).1

theorem isKey_of_mem_zip (sound : table.Sound) (member : row ∈ table.rows)
    {x : (Value × Roster) × Value} (held : x ∈ table.collections.zip row) : x.2.isKey = true := by
  have elements := (mem_rows.mp member).2.flip
  exact (sound.elements _ (mem_collections_of_mem_zip held)).keys _ (List.forall₂_zip elements held)

theorem map_fst_zip (member : row ∈ table.rows) :
    (table.collections.zip row).map (·.1) = table.collections :=
  List.map_fst_zip (Nat.le_of_eq (mem_rows.mp member).2.length_eq.symm)

theorem exists_mem_zip (member : row ∈ table.rows) {collection : Value × Roster}
    (inside : collection ∈ table.collections) : ∃ e, (collection, e) ∈ table.collections.zip row := by
  rw [← map_fst_zip member] at inside
  obtain ⟨x, held, rfl⟩ := List.mem_map.mp inside
  exact ⟨x.2, held⟩

theorem zip_unique (sound : table.Sound) (member : row ∈ table.rows) {x y : (Value × Roster) × Value}
    (first : x ∈ table.collections.zip row) (second : y ∈ table.collections.zip row) {name : Value}
    (same : x.1.1.same name = true) (same' : y.1.1.same name = true) : x = y := by
  have mapping : Keyed.IsMapping ((table.collections.zip row).map fun x => (x.1.1, x)) := by
    have names : Keyed.keys ((table.collections.zip row).map fun x => (x.1.1, x)) =
        table.collections.keys := by
      have first := congrArg (List.map (·.1)) (map_fst_zip member)
      rw [List.map_map] at first
      rw [Keyed.keys, List.map_map]
      exact first
    rw [Keyed.IsMapping, names]
    exact sound.names
  have entries := mapping.entry_unique (List.mem_map_of_mem first) (List.mem_map_of_mem second) same same'
  exact (Prod.ext_iff.mp entries).2

theorem any_same_list (sound : table.Sound) {collection : Value × Roster} (member : collection ∈ table.collections)
    (items : List Value) : collection.2.keys.any (·.same (.list items)) = false := by
  refine Bool.eq_false_iff.mpr fun held => ?_
  obtain ⟨e, inside, same⟩ := List.any_eq_true.mp held
  cases Value.isKey_of_same ((sound.elements _ member).keys e inside) same

theorem standsFor_list (sound : table.Sound) {collection : Value × Roster} (member : collection ∈ table.collections)
    (items : List Value) : (Value.list items).standsFor collection.2.keys = items := by
  rw [Value.standsFor, any_same_list sound member]
  rfl

theorem given_lists (entries : Keyed (List Value)) (name : Value) :
    table.given (entries.mapData Value.list) name = Keyed.get? (entries.mapData Value.list) name := by
  refine given_of_lasting (fun entry listed => ?_) name
  obtain ⟨_, -, equal⟩ := Keyed.mem_mapData.mp listed
  rw [← equal]
  rfl

theorem lies_lists (sound : table.Sound) {entries : Keyed (List Value)} (mapping : entries.IsMapping) :
    table.lies (entries.mapData Value.list) row = true ↔
      ∀ entry ∈ entries, ∀ x ∈ table.collections.zip row, entry.1.same x.1.1 = true →
        ∃ meant ∈ entry.2, x.2.same meant = true := by
  have lists : Keyed.IsMapping (entries.mapData Value.list) := by
    rw [Keyed.IsMapping, Keyed.keys_mapData]
    exact mapping
  rw [lies, List.all_eq_true]
  constructor
  · intro each entry held x inside same
    have given : table.given (entries.mapData Value.list) x.1.1 = some (.list entry.2) :=
      (given_lists _ _).trans <| (Keyed.get?_eq_some lists).mpr ⟨entry.1, Keyed.mem_mapData.mpr ⟨_, held, rfl⟩, same⟩
    have enlisted := each x inside
    simp only [admits, given, standsFor_list sound (mem_collections_of_mem_zip inside)] at enlisted
    simpa using enlisted
  · intro each x inside
    change admits _ _ x.1 x.2 = true
    unfold admits
    rw [given_lists]
    split
    · rfl
    · rename_i v given
      obtain ⟨name, held, same⟩ := (Keyed.get?_eq_some lists).mp given
      obtain ⟨items, held, equal⟩ := Keyed.mem_mapData.mp held
      cases equal
      rw [standsFor_list sound (mem_collections_of_mem_zip inside)]
      simpa using each _ held x inside same

section

variable {collection : Value × Roster} {name : Value}

theorem collection_of_same (sound : table.Sound) (member : collection ∈ table.collections)
    (key : name.isKey = true) (same : collection.1.same name = true) :
    table.collection name = .ok collection.2 := by
  have found : table.collections.get? name = some collection.2 :=
    (Keyed.get?_eq_some sound.names).mpr ⟨_, member, same⟩
  simp [Table.collection, Value.asKey, key, found]

theorem checkNames_ok (sound : table.Sound) {names : List Value} (known : ∀ name ∈ names, name.isKey = true ∧
    ∃ collection ∈ table.collections, collection.1.same name = true) : table.checkNames names = .ok () := by
  induction names with
  | nil => rfl
  | cons name rest ih =>
    obtain ⟨⟨key, collection, member, same⟩, others⟩ := List.forall_mem_cons.mp known
    simp [checkNames, checkName, collection_of_same sound member key same, ih others]

theorem wanted_list (sound : table.Sound) (member : collection ∈ table.collections) {items : List Value}
    (held : ∀ e ∈ items, collection.2.keys.any (·.same e) = true) :
    ∃ wanted, table.wanted collection.1 (.list items) = .ok wanted := by
  have meant : table.meant collection.1 (.list items) = .ok items := by
    rw [meant_eq sound member, any_same_list sound member]
    rfl
  have each : ∀ e ∈ items, ∃ p : Int,
      (do return (← table.indexOf collection.1 e : Nat) : Except Failure Int) = .ok p := by
    intro e inside
    obtain ⟨own, enlisted, same⟩ := List.any_eq_true.mp (held e inside)
    obtain ⟨i, found⟩ := List.getElem?_of_mem enlisted
    exact ⟨i, by rw [(indexOf_eq_ok sound member).mpr ⟨own, found, same⟩]; rfl⟩
  obtain ⟨places, related⟩ := exists_forall₂ each
  exact ⟨places, bind_eq_ok.mpr ⟨items, meant, mapM_eq_ok.mpr related⟩⟩

end

end Table

namespace View

variable {view next : View} {restriction : Keyed Value} {row : List Value}

theorem Narrows.mem_iff {table : Table} (sound : table.Sound) {collection : Value × Roster}
    (member : collection ∈ table.collections) {entry narrower : Value × Axis}
    (step : Narrows table restriction entry narrower) (name : entry.1 = collection.1) {p : Int}
    {e : Value} (nonneg : 0 ≤ p) (found : collection.2.keys[p.toNat]? = some e) :
    p ∈ narrower.2.positions ↔
      p ∈ entry.2.positions ∧ Table.admits table restriction collection e = true := by
  obtain ⟨-, left⟩ := step
  rw [name] at left
  cases given : table.given restriction collection.1 with
  | none =>
    rw [given] at left
    simp [Table.admits, given, left]
  | some v =>
    rw [given] at left
    obtain ⟨wanted, read, equal⟩ := left
    rw [equal, Axis.mem_narrow, Table.mem_wanted sound member read nonneg found, Table.admits, given, and_comm]

/-- A narrower view has the rows of the wider one that lie in the restriction. -/
theorem has_subset (sound : view.Sound) (narrowed : view.subset restriction = .ok next)
    (member : row ∈ view.table.rows) :
    next.has row = (view.has row && view.table.lies restriction row) := by
  obtain ⟨table, related⟩ := subset_eq_ok narrowed
  have parts {collections : Keyed Roster} {places : List Int} {row : List Value}
      (placed : Placed collections places row) {axes narrower : Keyed Axis} (fits : Fits collections axes)
      (steps : List.Forall₂ (Narrows view.table restriction) axes narrower)
      (part : ∀ collection ∈ collections, collection ∈ view.table.collections) :
      List.Forall₂ (· ∈ ·) places (narrower.map (·.2.positions)) ↔
        List.Forall₂ (· ∈ ·) places (axes.map (·.2.positions)) ∧
          ((collections.zip row).all fun (collection, e) =>
            view.table.admits restriction collection e) = true := by
    induction placed generalizing axes narrower with
    | nil =>
      cases fits
      cases steps
      simp
    | cons nonneg found others ih =>
      cases fits with
      | cons first fits =>
        cases steps with
        | cons step steps =>
          obtain ⟨inside, part⟩ := List.forall_mem_cons.mp part
          have here := step.mem_iff sound.table inside first.1 nonneg found
          simp [here, ih fits steps part, and_assoc, and_left_comm]
  rw [Bool.eq_iff_iff, Bool.and_eq_true, has, has, table, covers_iff, covers_iff]
  exact parts (Table.placed_of_mem_rows sound.table member) sound.axes related fun _ inside => inside

section

variable {collection : Value × Roster} {name e : Value}

theorem subset_lists (sound : view.Sound) {entries : Keyed (List Value)} (mapping : entries.IsMapping)
    (known : ∀ entry ∈ entries, ∃ collection ∈ view.table.collections,
      collection.1.same entry.1 = true ∧ ∀ e ∈ entry.2, collection.2.keys.any (·.same e) = true) :
    ∃ next, view.subset (entries.mapData Value.list) = .ok next := by
  have lists : Keyed.IsMapping (entries.mapData Value.list) := by
    rw [Keyed.IsMapping, Keyed.keys_mapData]
    exact mapping
  have names : view.table.checkNames (Keyed.keys (entries.mapData Value.list)) = .ok () := by
    refine Table.checkNames_ok sound.table fun name held => ⟨lists.keys name held, ?_⟩
    rw [Keyed.keys_mapData] at held
    obtain ⟨entry, listed, rfl⟩ := List.mem_map.mp held
    obtain ⟨collection, inside, same, -⟩ := known entry listed
    exact ⟨collection, inside, same⟩
  have each : ∀ axis ∈ view.axes, ∃ narrower : Value × Axis,
      Narrows view.table (entries.mapData Value.list) axis narrower := by
    intro axis inside
    unfold Narrows
    rw [Table.given_lists]
    cases given : Keyed.get? (entries.mapData Value.list) axis.1 with
    | none => exact ⟨axis, rfl, rfl⟩
    | some v =>
      obtain ⟨key, held, same⟩ := (Keyed.get?_eq_some lists).mp given
      obtain ⟨items, listed, rfl⟩ := Keyed.mem_mapData.mp held
      obtain ⟨collection, member, same', elements⟩ := known _ listed
      obtain ⟨other, member', equal, -⟩ := exists_of_mem_right sound.axes inside
      have key := mapping.keys _ (List.mem_map_of_mem listed)
      cases sound.table.names.entry_unique member member' same' (Value.same_symm key (equal ▸ same))
      obtain ⟨wanted, read⟩ := Table.wanted_list sound.table member elements
      exact ⟨(axis.1, axis.2.narrow wanted), rfl, wanted, by rw [equal, read], rfl⟩
  obtain ⟨axes, steps⟩ := exists_forall₂ each
  exact ⟨_, subset_ok names steps⟩

theorem subset_single (sound : view.Sound) (member : collection ∈ view.table.collections)
    (key : name.isKey = true) (same : collection.1.same name = true) (listed : e ∈ collection.2.keys) :
    ∃ next, view.subset [(name, .list [e])] = .ok next := by
  have self := Value.same_refl ((sound.table.elements _ member).keys e listed)
  have mapping : Keyed.IsMapping [(name, [e])] := Value.Different.append_single .nil key (by simp)
  refine subset_lists sound mapping fun entry single => ?_
  rw [List.mem_singleton.mp single]
  exact ⟨collection, member, same, by simpa using ⟨e, listed, self⟩⟩

end

end View

end Matchmaking
