import Matchmaking.Proofs.Space.RoundTrip

/-! The tuples of a table as rows of its elements. Each has one identifier, that of the places
of its elements, and the identifiers of a view are those of the rows that it has. -/
namespace Matchmaking

namespace Table

/-- All tuples of elements, one of each collection. -/
def rows (table : Table) : List (List Value) := tuples (table.collections.map (·.2.keys))

def places (table : Table) (row : List Value) : List Int :=
  List.zipWith (fun collection e => (((place? collection.2 e).getD 0 : Nat) : Int)) table.collections row

def identify (table : Table) (row : List Value) : String := Identifier.write (table.places row)

variable {table : Table} {row row' : List Value}

theorem mem_rows : row ∈ table.rows ↔ table.collections ≠ [] ∧
    List.Forall₂ (fun e (collection : Value × Roster) => e ∈ collection.2.keys) row table.collections := by
  rw [rows, mem_tuples, List.forall₂_map_right_iff, Ne, List.map_eq_nil_iff]

theorem placed_of_mem_rows (sound : table.Sound) (member : row ∈ table.rows) :
    Placed table.collections (table.places row) row := by
  have elements := (mem_rows.mp member).2
  have different := sound.elements
  rw [places]
  clear member
  generalize table.collections = collections at elements different
  induction elements with
  | nil => exact .nil
  | @cons e collection row collections inside _ ih =>
    obtain ⟨first, others⟩ := List.forall_mem_cons.mp different
    obtain ⟨i, bound, equal⟩ := List.getElem_of_mem inside
    have found : collection.2.keys[i]? = some e := by rw [← equal, List.getElem?_eq_getElem bound]
    have key := first.keys e inside
    have place : place? collection.2 e = some i := by
      rw [place?, if_pos key, Roster.place?_eq_some first]
      exact ⟨e, found, Value.same_refl key⟩
    simp only [List.zipWith_cons_cons, place, Option.getD_some]
    exact .cons (Int.natCast_nonneg i) (by simpa using found) (ih others)

theorem mem_rows_of_placed {places : List Int} (some : table.collections ≠ [])
    (placed : Placed table.collections places row) : row ∈ table.rows := by
  refine mem_rows.mpr ⟨some, ?_⟩
  generalize table.collections = collections at placed ⊢
  induction placed with
  | nil => exact .nil
  | cons nonneg found others ih => exact .cons (List.mem_of_getElem? found) ih

theorem places_of_placed (sound : table.Sound) {places : List Int} (some : table.collections ≠ [])
    (placed : Placed table.collections places row) : table.places row = places := by
  have member := mem_rows_of_placed some placed
  have again := placed_of_mem_rows sound member
  exact again.row_unique sound.elements placed (again.sameAll_refl sound.elements)
    (again.sameAll_refl sound.elements)

theorem nodup_rows (sound : table.Sound) : table.rows.Nodup := by
  refine nodup_tuples fun keys member => ?_
  obtain ⟨collection, inside, rfl⟩ := List.mem_map.mp member
  exact (sound.elements collection inside).nodup

theorem places_ne_nil (sound : table.Sound) (member : row ∈ table.rows) : table.places row ≠ [] := by
  intro empty
  have length := (placed_of_mem_rows sound member).length_row
  rw [empty] at length
  exact (mem_rows.mp member).1 (List.eq_nil_of_length_eq_zero length.symm)

theorem identify_injective (sound : table.Sound) (member : row ∈ table.rows) (member' : row' ∈ table.rows)
    (equal : table.identify row = table.identify row') : row = row' := by
  have placed := placed_of_mem_rows sound member
  have placed' := placed_of_mem_rows sound member'
  have places := Identifier.write_injective (places_ne_nil sound member) (places_ne_nil sound member')
    placed.nonneg placed'.nonneg equal
  exact placed.tuple_unique (places ▸ placed')

theorem nodup_identified (sound : table.Sound) (kind : List Value → Bool) :
    ((table.rows.filter kind).map table.identify).Nodup :=
  List.Nodup.map_on (fun _ member _ member' equal => identify_injective sound (List.mem_of_mem_filter member)
    (List.mem_of_mem_filter member') equal) ((nodup_rows sound).filter _)

end Table

namespace View

variable {view : View} {row : List Value} {id : String}

def has (view : View) (row : List Value) : Bool := view.covers (view.table.places row)

theorem Sound.axes_eq_nil (sound : view.Sound) : view.axes = [] ↔ view.table.collections = [] := by
  rw [← List.length_eq_zero_iff, ← List.length_eq_zero_iff, sound.length_axes]

/-- The identifiers of a view are those of the rows it has. -/
theorem mem_ids_iff (sound : view.Sound) :
    id ∈ view.ids ↔ ∃ row ∈ view.table.rows, view.has row = true ∧ view.table.identify row = id := by
  rw [mem_ids, Ne, sound.axes_eq_nil]
  constructor
  · rintro ⟨some, places, covered, rfl⟩
    obtain ⟨row, placed⟩ := sound.placed covered
    have equal := Table.places_of_placed sound.table some placed
    exact ⟨row, Table.mem_rows_of_placed some placed, by rwa [has, equal], by rw [Table.identify, equal]⟩
  · rintro ⟨row, member, covered, rfl⟩
    exact ⟨(Table.mem_rows.mp member).1, _, covered, rfl⟩

theorem ids_perm (sound : view.Sound) :
    view.ids.Perm ((view.table.rows.filter view.has).map view.table.identify) := by
  refine (List.perm_ext_iff_of_nodup (nodup_ids sound) (Table.nodup_identified sound.table _)).mpr fun id => ?_
  simp [mem_ids_iff sound, and_assoc]

theorem has_whole {table : Table} (sound : table.Sound) (member : row ∈ table.rows) :
    (whole table).has row = true :=
  covers_whole (Table.placed_of_mem_rows sound member)

theorem ids_subset_whole {table : Table} (sound : table.Sound) (reached : Of table view) :
    view.ids ⊆ (whole table).ids := by
  intro id held
  obtain ⟨row, inside, -, equal⟩ := (mem_ids_iff (reached.sound sound)).mp held
  rw [reached.table_eq] at inside equal
  exact (mem_ids_iff (sound_whole sound)).mpr ⟨row, inside, has_whole sound inside, equal⟩

theorem encode_row (sound : view.Sound) (member : row ∈ view.table.rows) :
    view.encode (.tuple row) = .ok id ↔ view.has row = true ∧ view.table.identify row = id := by
  have placed := Table.placed_of_mem_rows sound.table member
  have same := placed.sameAll_refl sound.table.elements
  rw [encode_eq_ok sound]
  constructor
  · rintro ⟨items, places, other, read, covered, placed', same', rfl⟩
    cases read
    have equal := placed.row_unique sound.table.elements placed' same same'
    exact ⟨by rwa [has, equal], by rw [Table.identify, equal]⟩
  · rintro ⟨covered, rfl⟩
    exact ⟨row, _, row, rfl, covered, placed, same, rfl⟩

end View

end Matchmaking
