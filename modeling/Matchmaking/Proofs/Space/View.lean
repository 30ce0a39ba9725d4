import Matchmaking.Proofs.Space.Identifier
import Matchmaking.Proofs.Space.Product
import Matchmaking.Proofs.Space.Table
import Matchmaking.Space.View

/-! What every view of a table keeps, however often it was narrowed: one axis for each
collection, with positions of its elements in ascending order. A row of positions taken from
the axes stands for one tuple of elements, and a tuple for one row. -/
namespace Matchmaking

namespace Axis

/-- Positions of a collection of some size, in ascending order. -/
structure Within (size : Nat) (axis : Axis) : Prop where
  ascending : axis.positions.Pairwise (· < ·)
  range : ∀ p ∈ axis.positions, 0 ≤ p ∧ p < size

theorem mem_full {size : Nat} {p : Int} : p ∈ (full size).positions ↔ 0 ≤ p ∧ p < size := by
  simp only [full, ofPositions, List.mem_map, List.mem_range]
  constructor
  · rintro ⟨place, bound, rfl⟩
    omega
  · rintro ⟨nonneg, bound⟩
    exact ⟨p.toNat, by omega, by omega⟩

theorem within_full (size : Nat) : (full size).Within size where
  ascending := by
    rw [full, ofPositions, List.pairwise_map]
    exact List.pairwise_lt_range.imp fun less => by omega
  range := fun _ member => mem_full.mp member

theorem pairwise_unrepeated {row : List Int} (sorted : row.Pairwise (· ≤ ·)) :
    (unrepeated row).Pairwise (· < ·) := by
  fun_induction unrepeated row with
  | case1 first rest ih => exact ih sorted.of_cons
  | case2 first second rest differs ih =>
    rw [List.pairwise_cons]
    refine ⟨fun p member => ?_, ih sorted.of_cons⟩
    have later := List.pairwise_cons.mp sorted.of_cons
    have next : first ≤ second := List.rel_of_pairwise_cons sorted List.mem_cons_self
    rcases List.mem_cons.mp (mem_unrepeated.mp member) with rfl | inside
    · omega
    · have := later.1 p inside
      omega
  | case3 row short =>
    rcases row with _ | ⟨first, _ | ⟨second, rest⟩⟩
    · exact .nil
    · exact List.pairwise_singleton ..
    · exact absurd rfl (short first second rest)

theorem Within.narrow {size : Nat} {axis : Axis} (within : axis.Within size) (wanted : List Int) :
    (axis.narrow wanted).Within size where
  ascending := by
    rw [Axis.narrow, ofPositions, Axis.ascending]
    apply pairwise_unrepeated
    have sorted : ((wanted.filter axis.contains).mergeSort (· ≤ ·)).Pairwise
        fun p q : Int => decide (p ≤ q) = true :=
      List.pairwise_mergeSort (fun p q r => by simpa using Int.le_trans)
        (fun p q => by simpa using Int.le_total p q) _
    simpa using sorted
  range := fun p member => within.range p (mem_narrow.mp member).2

theorem Within.nodup {size : Nat} {axis : Axis} (within : axis.Within size) : axis.positions.Nodup :=
  within.ascending.imp fun less => by omega

end Axis

/-- Positions and the elements there, one of each collection. -/
inductive Placed : Keyed Roster → List Int → List Value → Prop where
  | nil : Placed [] [] []
  | cons {name : Value} {roster : Roster} {p : Int} {e : Value} {rest : Keyed Roster}
      {row : List Int} {tuple : List Value} (nonneg : 0 ≤ p) (found : roster.keys[p.toNat]? = some e)
      (others : Placed rest row tuple) : Placed ((name, roster) :: rest) (p :: row) (e :: tuple)

namespace Placed

variable {collections : Keyed Roster} {row row' : List Int} {tuple tuple' : List Value}

theorem length_row (placed : Placed collections row tuple) : row.length = collections.length := by
  induction placed with
  | nil => rfl
  | cons nonneg found others ih => simp [ih]

theorem length_tuple (placed : Placed collections row tuple) : tuple.length = collections.length := by
  induction placed with
  | nil => rfl
  | cons nonneg found others ih => simp [ih]

theorem nonneg (placed : Placed collections row tuple) : ∀ p ∈ row, 0 ≤ p := by
  induction placed with
  | nil => simp
  | cons nonneg found others ih => simpa [nonneg] using ih

theorem bound (placed : Placed collections row tuple) {limit : Nat}
    (small : ∀ entry ∈ collections, entry.2.size ≤ limit) : ∀ p ∈ row, p.natAbs < limit := by
  induction placed with
  | nil => simp
  | @cons name roster p e rest row tuple nonneg found others ih =>
    obtain ⟨first, rest⟩ : roster.size ≤ limit ∧ ∀ entry ∈ rest, entry.2.size ≤ limit := by
      simpa using small
    obtain ⟨less, -⟩ := List.getElem?_eq_some_iff.mp found
    rw [Roster.length_keys] at less
    intro q member
    rcases List.mem_cons.mp member with rfl | inside
    · omega
    · exact ih rest q inside

theorem tuple_unique (placed : Placed collections row tuple) (other : Placed collections row tuple') :
    tuple = tuple' := by
  induction placed generalizing tuple' with
  | nil => cases other; rfl
  | cons nonneg found others ih =>
    cases other with
    | cons nonneg' found' others' =>
      rw [found] at found'
      rw [Option.some.inj found', ih others']

/-- A tuple has one row of positions, whatever its elements are taken to be the same as. -/
theorem row_unique (sound : ∀ entry ∈ collections, Value.Different entry.2.keys)
    (placed : Placed collections row tuple) (other : Placed collections row' tuple') {values : List Value}
    (same : Value.sameAll tuple values = true) (same' : Value.sameAll tuple' values = true) :
    row = row' := by
  induction placed generalizing row' tuple' values with
  | nil => cases other; rfl
  | @cons name roster p e rest row tuple nonneg found others ih =>
    cases other with
    | @cons _ _ p' e' _ row' tuple' nonneg' found' others' =>
      cases values with
      | nil => simp [Value.sameAll] at same
      | cons v values =>
        simp only [Value.sameAll, Bool.and_eq_true] at same same'
        have first := (Roster.place?_eq_some (sound _ List.mem_cons_self)).mpr ⟨e, found, same.1⟩
        have second := (Roster.place?_eq_some (sound _ List.mem_cons_self)).mpr ⟨e', found', same'.1⟩
        have places : p.toNat = p'.toNat := by simpa [first] using second
        have equal : p = p' := by omega
        rw [equal, ih (fun entry member => sound entry (List.mem_cons_of_mem _ member)) others' same.2
          same'.2]

theorem isKey_tuple (sound : ∀ entry ∈ collections, Value.Different entry.2.keys)
    (placed : Placed collections row tuple) : (Value.tuple tuple).isKey = true := by
  rw [Value.isKey]
  induction placed with
  | nil => rfl
  | @cons name roster p e rest row tuple nonneg found others ih =>
    have key := (sound _ List.mem_cons_self).keys e (List.mem_of_getElem? found)
    rw [Value.allKeys, key, ih fun entry member => sound entry (List.mem_cons_of_mem _ member),
      Bool.and_self]

theorem sameAll_refl (sound : ∀ entry ∈ collections, Value.Different entry.2.keys)
    (placed : Placed collections row tuple) : Value.sameAll tuple tuple = true := by
  have same := Value.same_refl (placed.isKey_tuple sound)
  rwa [Value.same] at same

theorem on_full (placed : Placed collections row tuple) :
    List.Forall₂ (fun p entry => p ∈ (Axis.full entry.2.size).positions) row collections := by
  induction placed with
  | nil => exact .nil
  | @cons name roster p e rest row tuple nonneg found others ih =>
    obtain ⟨less, -⟩ := List.getElem?_eq_some_iff.mp found
    rw [Roster.length_keys] at less
    exact .cons (Axis.mem_full.mpr ⟨nonneg, (Int.toNat_lt nonneg).mp less⟩) ih

end Placed

namespace View

/-- For each collection an axis of its positions. -/
abbrev Fits : Keyed Roster → Keyed Axis → Prop :=
  List.Forall₂ fun collection entry => entry.1 = collection.1 ∧ entry.2.Within collection.2.size

/-- A table without repetitions, and axes of its collections. -/
structure Sound (view : View) : Prop where
  table : view.table.Sound
  axes : Fits view.table.collections view.axes

/-- The views that come of narrowing the space of a table again and again. -/
inductive Of (table : Table) : View → Prop where
  | whole : Of table (.whole table)
  | subset {view next : View} {restriction : Keyed Value} (origin : Of table view)
      (narrowed : view.subset restriction = .ok next) : Of table next

variable {table : Table} {view next : View} {row : List Int}

theorem sound_whole (sound : table.Sound) : (whole table).Sound where
  table := sound
  axes := by
    simp only [whole, Keyed.mapData, List.forall₂_map_right_iff]
    exact List.forall₂_same.mpr fun entry _ => ⟨rfl, Axis.within_full _⟩

/-- What a restriction leaves of an axis. -/
def Narrows (table : Table) (restriction : Keyed Value) (entry narrower : Value × Axis) : Prop :=
  narrower.1 = entry.1 ∧ match table.given restriction entry.1 with
    | none => narrower.2 = entry.2
    | some v => ∃ wanted, table.wanted entry.1 v = .ok wanted ∧ narrower.2 = entry.2.narrow wanted

/-- A narrower view has the same table and keeps some of the positions of each axis. -/
theorem subset_eq_ok {restriction : Keyed Value} (narrowed : view.subset restriction = .ok next) :
    next.table = view.table ∧ List.Forall₂ (Narrows view.table restriction) view.axes next.axes := by
  obtain ⟨-, -, narrowed⟩ := bind_eq_ok.mp narrowed
  obtain ⟨axes, found, narrowed⟩ := bind_eq_ok.mp narrowed
  cases narrowed
  refine ⟨rfl, (mapM_eq_ok.mp found).imp fun entry narrower step => ?_⟩
  unfold Narrows
  cases given : view.table.given restriction entry.1 with
  | none =>
    simp only [given, pure_eq_ok, Except.ok.injEq] at step
    simp [← step]
  | some v =>
    simp only [given] at step
    obtain ⟨wanted, read, step⟩ := bind_eq_ok.mp step
    cases step
    exact ⟨rfl, wanted, read, rfl⟩

theorem subset_ok {restriction : Keyed Value} {axes : Keyed Axis}
    (known : view.table.checkNames restriction.keys = .ok ())
    (steps : List.Forall₂ (Narrows view.table restriction) view.axes axes) :
    view.subset restriction = .ok ⟨view.table, .subset, axes⟩ := by
  refine bind_eq_ok.mpr ⟨(), known, bind_eq_ok.mpr ⟨axes, ?_, rfl⟩⟩
  apply mapM_eq_ok.mpr
  refine steps.imp fun entry narrower step => ?_
  obtain ⟨name, left⟩ := step
  cases given : view.table.given restriction entry.1 with
  | none =>
    rw [given] at left
    simp only [given, pure_eq_ok, Except.ok.injEq]
    exact Prod.ext name.symm left.symm
  | some v =>
    rw [given] at left
    obtain ⟨wanted, read, equal⟩ := left
    simp only [given, read, ok_bind, pure_eq_ok, Except.ok.injEq]
    exact Prod.ext name.symm equal.symm

theorem known_of_subset (sound : view.Sound) {restriction : Keyed Value}
    (narrowed : view.subset restriction = .ok next) :
    ∀ name ∈ restriction.keys, ∃ entry ∈ view.table.collections, entry.1.same name = true := by
  obtain ⟨_, checked, -⟩ := bind_eq_ok.mp narrowed
  exact Table.known_of_checkNames sound.table checked

theorem Narrows.within {restriction : Keyed Value} {entry narrower : Value × Axis} {size : Nat}
    (step : Narrows table restriction entry narrower) (within : entry.2.Within size) :
    narrower.2.Within size := by
  obtain ⟨-, left⟩ := step
  split at left
  · rwa [left]
  · obtain ⟨wanted, -, equal⟩ := left
    rw [equal]
    exact within.narrow wanted

theorem Sound.subset (sound : view.Sound) {restriction : Keyed Value}
    (narrowed : view.subset restriction = .ok next) : next.Sound := by
  obtain ⟨table, axes⟩ := subset_eq_ok narrowed
  refine ⟨table ▸ sound.table, ?_⟩
  rw [table]
  have kept := sound.axes
  generalize view.axes = former at kept axes
  generalize next.axes = later at axes ⊢
  generalize view.table.collections = collections at kept ⊢
  induction axes generalizing collections with
  | nil => cases kept; exact .nil
  | @cons entry narrower rest others step _ ih =>
    cases kept with
    | cons first kept => exact .cons ⟨step.1.trans first.1, step.within first.2⟩ (ih _ kept)

theorem Of.table_eq (reached : Of table view) : view.table = table := by
  induction reached with
  | whole => rfl
  | subset origin narrowed ih => exact (subset_eq_ok narrowed).1.trans ih

theorem Of.sound (sound : table.Sound) (reached : Of table view) : view.Sound := by
  induction reached with
  | whole => exact sound_whole sound
  | subset origin narrowed ih => exact ih.subset narrowed

theorem Sound.length_axes (sound : view.Sound) : view.axes.length = view.table.collections.length :=
  sound.axes.length_eq.symm

theorem Sound.keys_axes (sound : view.Sound) : view.axes.keys = view.names :=
  (Keyed.keys_eq_of_forall₂ sound.axes fun _ _ step => step.1.symm).symm

theorem covers_iff : view.covers row = true ↔ List.Forall₂ (· ∈ ·) row view.positions := by
  rw [covers, positions, List.forall₂_map_right_iff]
  generalize view.axes = axes
  induction axes generalizing row with
  | nil => cases row <;> simp
  | cons entry rest ih =>
    cases row with
    | nil => simp
    | cons p others =>
      rw [List.forall₂_cons, ← ih]
      simp [Axis.contains_iff, and_left_comm]

/-- The identifiers are those of the rows that the axes cover, if there are axes. -/
theorem mem_ids {id : String} :
    id ∈ view.ids ↔ view.axes ≠ [] ∧ ∃ row, view.covers row = true ∧ id = Identifier.write row := by
  simp only [ids, List.mem_map, mem_tuples, ← covers_iff]
  constructor
  · rintro ⟨row, ⟨some, covered⟩, rfl⟩
    exact ⟨by simpa [positions] using some, row, covered, rfl⟩
  · rintro ⟨some, row, covered, rfl⟩
    exact ⟨row, ⟨by simpa [positions] using some, covered⟩, rfl⟩

theorem covers_whole {tuple : List Value} (placed : Placed table.collections row tuple) :
    (whole table).covers row = true := by
  rw [covers_iff, positions]
  simp only [whole, Keyed.mapData, List.map_map, List.forall₂_map_right_iff]
  exact placed.on_full

theorem Sound.placed (sound : view.Sound) (covered : view.covers row = true) :
    ∃ tuple, Placed view.table.collections row tuple := by
  have fits := sound.axes
  rw [covers_iff, positions, List.forall₂_map_right_iff] at covered
  generalize view.table.collections = collections at fits ⊢
  generalize view.axes = axes at fits covered
  induction fits generalizing row with
  | nil => cases covered; exact ⟨[], .nil⟩
  | @cons collection entry collections axes first _ ih =>
    cases covered with
    | @cons p _ others _ member rest =>
      obtain ⟨tuple, placed⟩ := ih rest
      obtain ⟨nonneg, bound⟩ := first.2.range p member
      have below : p.toNat < collection.2.keys.length := by
        rw [Roster.length_keys]
        omega
      exact ⟨_, .cons nonneg (List.getElem?_eq_getElem below) placed⟩

end View

theorem Placed.row_ne_nil {view : View} {row : List Int} {tuple : List Value}
    (placed : Placed view.table.collections row tuple) (sound : view.Sound) (some : view.axes ≠ []) :
    row ≠ [] := by
  intro empty
  have length := placed.length_row
  rw [empty, ← sound.length_axes] at length
  exact some (List.eq_nil_of_length_eq_zero length.symm)

end Matchmaking
