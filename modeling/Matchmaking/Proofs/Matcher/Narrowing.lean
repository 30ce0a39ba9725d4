import Matchmaking.Matcher.Compose
import Matchmaking.Proofs.Matcher.Configured

/-! The active identifiers of a configured matcher, which are those of the rows that some call
includes, and what narrowing to them leaves of the identifiers of a view. -/
namespace Matchmaking

namespace Table

variable {table : Table} {ids : List String} {kind kind' : List Value → Bool}

/-- Identifiers of just the rows of a kind, each once. -/
def Lists (table : Table) (ids : List String) (kind : List Value → Bool) : Prop :=
  ids.Perm ((table.rows.filter kind).map table.identify)

namespace Lists

theorem congr (lists : table.Lists ids kind) (same : ∀ row ∈ table.rows, kind row = kind' row) :
    table.Lists ids kind' := by
  rwa [Lists, ← List.filter_congr same]

theorem length (lists : table.Lists ids kind) : ids.length = table.number kind := by
  rw [List.Perm.length_eq lists, List.length_map, number, List.countP_eq_length_filter]

theorem nodup (sound : table.Sound) (lists : table.Lists ids kind) : ids.Nodup :=
  (List.Perm.nodup_iff lists).mpr (Table.nodup_identified sound kind)

theorem mem {id : String} (lists : table.Lists ids kind) :
    id ∈ ids ↔ ∃ row ∈ table.rows, kind row = true ∧ table.identify row = id := by
  simp [List.Perm.mem_iff lists, and_assoc]

theorem identify_mem (sound : table.Sound) (lists : table.Lists ids kind) {row : List Value}
    (member : row ∈ table.rows) : table.identify row ∈ ids ↔ kind row = true := by
  rw [lists.mem]
  constructor
  · rintro ⟨other, inside, fits, equal⟩
    rwa [← Table.identify_injective sound inside member equal]
  · exact fun fits => ⟨row, member, fits, rfl⟩

theorem of_view {view : View} (sound : view.Sound) (has : ∀ row ∈ view.table.rows, view.has row = kind row) :
    view.table.Lists view.ids kind :=
  congr (View.ids_perm sound) has

theorem filter (lists : table.Lists ids kind) {keeps : String → Bool}
    (kept : ∀ row ∈ table.rows, keeps (table.identify row) = kind' row) :
    table.Lists (ids.filter keeps) fun row => kind' row && kind row := by
  have narrowed := List.Perm.filter keeps lists
  have same : (table.rows.filter kind).filter (keeps ∘ table.identify) =
      table.rows.filter fun row => kind' row && kind row := by
    rw [List.filter_filter]
    exact List.filter_congr fun row member => by rw [Function.comp_apply, kept row member]
  rwa [List.filter_map, same] at narrowed

end Lists

end Table

namespace Matcher

theorem narrowRow_text (scope : Option (Std.HashSet String)) (ids : List String) :
    narrowRow scope (ids.map .text) = (narrow scope ids).map .text := by
  cases scope with
  | none => rfl
  | some active =>
    rw [narrowRow, narrow, List.filter_map]
    rfl

theorem narrow_narrow (scope : Option (Std.HashSet String)) (ids : List String) :
    narrow scope (narrow scope ids) = narrow scope ids := by
  cases scope with
  | none => rfl
  | some active => simp [narrow, List.filter_filter]

def activates (m : Matcher) (table : Table) (row : List Value) : Bool := m.active.contains (table.identify row)

theorem narrow_lists {table : Table} {m : Matcher} (sound : table.Sound) (space : m.space = .whole table)
    {ids : List String} {kind : List Value → Bool} (lists : table.Lists ids kind) :
    table.Lists (narrow m.scope ids) fun row => m.activates table row && kind row := by
  unfold scope
  split
  · rename_i none
    refine lists.congr fun row member => ?_
    have active : m.activates table row = true := by
      rw [activates, active, if_pos none, space, List.contains_iff_mem, View.mem_ids_iff (View.sound_whole sound)]
      exact ⟨row, member, View.has_whole sound member, rfl⟩
    rw [active, Bool.true_and]
  · exact lists.filter fun row _ => Std.HashSet.contains_ofList

namespace Configured

variable {table : Table} {calls : List Call} {m : Matcher} {id : String}

theorem composers_eq_nil (configured : Configured table calls m) :
    m.composers = [] ↔ ∀ row ∈ table.rows, calls.any (·.includes table row) = false := by
  constructor
  · intro none row member
    refine Bool.eq_false_iff.mpr fun included => ?_
    obtain ⟨composer, listed, -⟩ := (configured.composers.rows row member).mpr included
    simp [none] at listed
  · intro none
    refine List.eq_nil_iff_forall_not_mem.mpr fun composer listed => ?_
    obtain ⟨seen, of, some⟩ := configured.composers.views composer listed
    have present : composer.view.ids ≠ [] := by
      rw [Ne, ← View.isEmpty_iff, some]
      exact Bool.false_ne_true
    obtain ⟨id, member⟩ := List.exists_mem_of_ne_nil _ present
    obtain ⟨row, inside, has, -⟩ := (View.mem_ids_iff seen).mp member
    rw [of] at inside
    have included := (configured.composers.rows row inside).mp ⟨composer, listed, has⟩
    rw [none row inside] at included
    cases included

theorem mem_active (sound : table.Sound) (configured : Configured table calls m) :
    id ∈ m.active ↔ ∃ row ∈ table.rows, table.isActive calls row = true ∧ table.identify row = id := by
  by_cases none : m.composers = []
  · have free := configured.composers_eq_nil.mp none
    have all : m.active = (View.whole table).ids := by simp [active, none, configured.space]
    have idle : (table.rows.any fun other => calls.any (·.includes table other)) = false := by
      simpa using free
    rw [all, View.mem_ids_iff (View.sound_whole sound)]
    refine exists_congr fun row => and_congr_right fun member => and_congr_left fun _ => ?_
    simp only [View.has_whole sound member, Table.isActive, idle, Bool.not_false, Bool.or_true]
  · have some := mt configured.composers_eq_nil.mpr none
    have busy : (table.rows.any fun other => calls.any (·.includes table other)) = true := by
      simpa using some
    have listed : m.active = Text.distinct (m.composers.flatMap fun composer => composer.view.ids) := by
      simp [active, none]
    rw [listed, Text.mem_distinct, List.mem_flatMap]
    simp only [Table.isActive, busy, Bool.not_true, Bool.or_false]
    constructor
    · rintro ⟨composer, member, held⟩
      obtain ⟨seen, of, -⟩ := configured.composers.views composer member
      obtain ⟨row, inside, has, rfl⟩ := (View.mem_ids_iff seen).mp held
      rw [of] at inside ⊢
      exact ⟨row, inside, (configured.composers.rows row inside).mp ⟨composer, member, has⟩, rfl⟩
    · rintro ⟨row, inside, included, rfl⟩
      obtain ⟨composer, member, has⟩ := (configured.composers.rows row inside).mpr included
      obtain ⟨seen, of, -⟩ := configured.composers.views composer member
      exact ⟨composer, member, (View.mem_ids_iff seen).mpr ⟨row, of.symm ▸ inside, has, by rw [of]⟩⟩

theorem identify_mem_active (sound : table.Sound) (configured : Configured table calls m) {row : List Value}
    (member : row ∈ table.rows) : table.identify row ∈ m.active ↔ table.isActive calls row = true := by
  rw [configured.mem_active sound]
  constructor
  · rintro ⟨other, inside, active, equal⟩
    rwa [← Table.identify_injective sound inside member equal]
  · exact fun active => ⟨row, member, active, rfl⟩

theorem narrow_lists (sound : table.Sound) (configured : Configured table calls m) {ids : List String}
    {kind : List Value → Bool} (lists : table.Lists ids kind) :
    table.Lists (narrow m.scope ids) fun row => table.isActive calls row && kind row := by
  refine (Matcher.narrow_lists sound configured.space lists).congr fun row member => ?_
  rw [show m.activates table row = table.isActive calls row by
    rw [Bool.eq_iff_iff, activates, List.contains_iff_mem, configured.identify_mem_active sound member]]

end Configured

end Matcher

end Matchmaking
