import Mathlib.Data.List.Sort
import Matchmaking.Proofs.Space.Knowledge

/-! Narrowing as filtering. Every axis of a narrower view is a filtered axis of the wider one, so the identifiers of
the narrower view are listed in the order of the wider one, and which of them are left is known of their tuples. Two
views that have the same rows therefore list the same identifiers in the same order, and it does not matter in which
order, or how often, restrictions are made. -/
namespace Matchmaking

theorem filter_of_sublist {α : Type} [DecidableEq α] {xs ys : List α} (nodup : ys.Nodup) (part : xs.Sublist ys) :
    ys.filter (· ∈ xs) = xs := by
  induction part with
  | slnil => rfl
  | cons y part ih =>
    obtain ⟨fresh, nodup⟩ := List.nodup_cons.mp nodup
    rw [List.filter_cons_of_neg (by simpa using fun member => fresh (part.subset member)), ih nodup]
  | cons_cons y part ih =>
    obtain ⟨fresh, nodup⟩ := List.nodup_cons.mp nodup
    rw [List.filter_cons_of_pos (by simp)]
    refine congrArg (y :: ·) ((List.filter_congr fun other member => ?_).trans (ih nodup))
    have apart : other ≠ y := fun equal => fresh (equal ▸ member)
    simp [apart]

namespace Axis

theorem Within.narrow_eq {size : Nat} {axis : Axis} (within : axis.Within size) (wanted : List Int) :
    (axis.narrow wanted).positions = axis.positions.filter (· ∈ wanted) := by
  refine (within.narrow wanted).ascending.eq_of_mem_iff (within.ascending.filter _) fun p => ?_
  rw [mem_narrow, List.mem_filter, decide_eq_true_eq, and_comm]

end Axis

theorem Value.items_ends (v : Value) : Ends v.items (fun items => v.items? = some items) fun failure =>
    ¬failure.IsUnknown := by
  unfold items
  split
  · rename_i start stop step
    unfold counted
    split
    · exact .inr ⟨.tooLarge, rfl, show ¬Failure.IsUnknown _ by decide⟩
    · rw [ok_bind]
      split
      · exact .inr ⟨.outOfMemory, rfl, show ¬Failure.IsUnknown _ by decide⟩
      · exact .inl ⟨_, rfl, rfl⟩
  · cases items? v with
    | none => exact .inr ⟨.wrongKind, rfl, show ¬Failure.IsUnknown _ by decide⟩
    | some items => exact .inl ⟨items, rfl, rfl⟩

theorem Table.meant_ends {table : Table} (sound : table.Sound) {collection : Value × Roster}
    (member : collection ∈ table.collections) (v : Value) : Ends (table.meant collection.1 v)
      (· = v.standsFor collection.2.keys) fun failure => ¬failure.IsUnknown := by
  rw [meant_eq sound member, Value.standsFor]
  split
  · exact .inl ⟨_, rfl, rfl⟩
  · rcases v.items_ends with ⟨items, read, same⟩ | ⟨failure, refused, cause⟩
    · exact .inl ⟨items, read, by rw [same, Option.getD_some]⟩
    · exact .inr ⟨failure, refused, cause⟩

/-- The only collection is restricted to what the value given for it stands for. -/
theorem Table.knows_single {table : Table} {name v : Value} {roster : Roster}
    (shape : table.collections = [(name, roster)]) (self : name.same name = true) :
    table.Knows [(name, v)] ↔ ∀ meant ∈ v.standsFor roster.keys, holds (name, roster) meant = true := by
  have given : table.given [(name, v)] name = some v := by simp [given, readFor, shape, Keyed.get?, self]
  constructor
  · intro knows
    exact knows.elements (name, roster) (by simp [shape]) v given
  · intro each
    refine ⟨fun other held => ?_, fun collection member w found => ?_⟩
    · rw [List.mem_singleton.mp held]
      exact ⟨(name, roster), by simp [shape], self⟩
    · rw [shape, List.mem_singleton] at member
      subst member
      obtain rfl := Option.some.inj (given.symm.trans found)
      exact each

namespace View

variable {table : Table} {view other next : View} {restriction : Keyed Value} {row : List Value}

def leaves (table : Table) (restriction : Keyed Value) (entry : Value × Axis) (p : Int) : Bool :=
  match table.given restriction entry.1 with
  | none => true
  | some v =>
    match table.wanted entry.1 v with
    | .ok wanted => p ∈ wanted
    | .error _ => false

theorem Narrows.positions_eq {entry narrower : Value × Axis} {size : Nat}
    (step : Narrows table restriction entry narrower) (within : entry.2.Within size) :
    narrower.2.positions = entry.2.positions.filter (leaves table restriction entry) := by
  obtain ⟨-, left⟩ := step
  unfold leaves
  cases given : table.given restriction entry.1 with
  | none =>
    rw [given] at left
    simp [left]
  | some v =>
    rw [given] at left
    obtain ⟨wanted, read, equal⟩ := left
    simp only [read]
    rw [equal, within.narrow_eq]

theorem positions_of_subset (sound : view.Sound) (narrowed : view.subset restriction = .ok next) :
    next.positions = view.axes.map fun entry => entry.2.positions.filter (leaves view.table restriction entry) := by
  obtain ⟨-, steps⟩ := subset_eq_ok narrowed
  have within : ∀ entry ∈ view.axes, ∃ size, entry.2.Within size := by
    intro entry member
    obtain ⟨collection, -, -, within⟩ := exists_of_mem_right sound.axes member
    exact ⟨_, within⟩
  rw [positions, ← List.forall₂_eq_eq_eq, List.forall₂_map_left_iff, List.forall₂_map_right_iff]
  refine ((List.forall₂_and_left ..).mpr ⟨within, steps⟩).flip.imp ?_
  rintro narrower entry ⟨⟨size, within⟩, step⟩
  exact step.positions_eq within

/-- A space is narrowed to one element by leaving one position on the axis of its collection. -/
theorem ids_element {table : Table} {name e : Value} {roster : Roster} {i : Nat} (sound : table.Sound)
    (member : (name, roster) ∈ table.collections) (found : roster.keys[i]? = some e) :
    ∃ view, (whole table).subset [(name, .list [e])] = .ok view ∧ view.ids =
      (tuples (table.collections.map fun entry => (Axis.full entry.2.size).positions.filter
        fun p : Int => !name.same entry.1 || decide (p = i))).map Identifier.write := by
  have key := sound.names.keys name (List.mem_map_of_mem member)
  have listed := List.mem_of_getElem? found
  have self := Value.same_refl ((sound.elements _ member).keys e listed)
  obtain ⟨view, narrowed⟩ := subset_single (sound_whole sound) member key (Value.same_refl key) listed
  refine ⟨view, narrowed, ?_⟩
  rw [ids, positions_of_subset (sound_whole sound) narrowed]
  simp only [whole, Keyed.mapData, List.map_map, Function.comp_def]
  congr 2
  refine List.map_congr_left fun entry inside => List.filter_congr fun p _ => ?_
  have given : table.given [(name, Value.list [e])] entry.1 = if name.same entry.1 then some (.list [e]) else none := by
    rw [Table.given_of_lasting (by simp [Value.isStream]), Keyed.get?, List.find?_cons]
    cases name.same entry.1 <;> rfl
  unfold leaves
  dsimp only
  rw [given]
  cases same : name.same entry.1 with
  | false => simp
  | true =>
    cases sound.names.entry_unique member inside (Value.same_refl key) (Value.same_symm key same)
    have place : table.indexOf name e = .ok i := (Table.indexOf_eq_ok sound member).mpr ⟨e, found, self⟩
    have meant : table.meant name (.list [e]) = .ok [e] := by
      rw [Table.meant_eq sound member, Table.any_same_list sound member]
      rfl
    have wanted : table.wanted name (.list [e]) = .ok [(i : Int)] :=
      bind_eq_ok.mpr ⟨[e], meant, by rw [List.mapM_cons, place]; rfl⟩
    simp [wanted]

theorem ids_sublist (sound : view.Sound) (narrowed : view.subset restriction = .ok next) :
    next.ids.Sublist view.ids := by
  rw [ids, ids, positions_of_subset sound narrowed, tuples_filter]
  exact List.filter_sublist.map _

theorem Of.ids_sublist (sound : table.Sound) (reached : Of table view) : view.ids.Sublist (View.whole table).ids := by
  induction reached with
  | whole => exact List.Sublist.refl _
  | subset origin narrowed ih => exact (View.ids_sublist (origin.sound sound) narrowed).trans ih

theorem ids_ext (sound : table.Sound) (reached : Of table view) (reached' : Of table other)
    (same : ∀ row ∈ table.rows, view.has row = other.has row) : view.ids = other.ids := by
  have once := nodup_ids (sound_whole sound)
  rw [← filter_of_sublist once (reached.ids_sublist sound), ← filter_of_sublist once (reached'.ids_sublist sound)]
  refine List.filter_congr fun id _ => ?_
  rw [decide_eq_decide, mem_ids_iff (reached.sound sound), mem_ids_iff (reached'.sound sound), reached.table_eq,
    reached'.table_eq]
  refine exists_congr fun row => and_congr_right fun member => ?_
  rw [same row member]

/-- What a restriction that narrows a view gives for a collection can be looked up there. -/
theorem wanted_of_subset (sound : view.Sound) (narrowed : view.subset restriction = .ok next)
    {collection : Value × Roster} (member : collection ∈ view.table.collections) {v : Value}
    (given : view.table.given restriction collection.1 = some v) : ∃ wanted, view.table.wanted collection.1 v = .ok wanted := by
  obtain ⟨-, steps⟩ := subset_eq_ok narrowed
  obtain ⟨entry, listed, name, -⟩ := exists_of_mem_right sound.axes.flip member
  obtain ⟨narrower, -, -, left⟩ := exists_of_mem_right steps.flip listed
  rw [name, given] at left
  obtain ⟨wanted, read, -⟩ := left
  exact ⟨wanted, read⟩

theorem knows_of_subset (sound : view.Sound) (narrowed : view.subset restriction = .ok next) :
    view.table.Knows restriction where
  names := known_of_subset sound narrowed
  elements collection member v given meant among := by
    obtain ⟨wanted, read⟩ := wanted_of_subset sound narrowed member given
    obtain ⟨values, listed, read⟩ := bind_eq_ok.mp read
    rw [← Table.meant_eq_ok sound.table member listed] at among
    obtain ⟨p, -, step⟩ := exists_of_mem_right (mapM_eq_ok.mp read).flip among
    obtain ⟨i, place, -⟩ := bind_eq_ok.mp step
    obtain ⟨e, found, same⟩ := (Table.indexOf_eq_ok sound.table member).mp place
    exact List.any_eq_true.mpr ⟨e, List.mem_of_getElem? found, same⟩

theorem subset_of_subset (sound : view.Sound) (sound' : other.Sound) (equal : other.table = view.table)
    (narrowed : view.subset restriction = .ok next) : ∃ narrower, other.subset restriction = .ok narrower := by
  obtain ⟨_, checked, -⟩ := bind_eq_ok.mp narrowed
  have each : ∀ entry ∈ other.axes, ∃ narrower, Narrows other.table restriction entry narrower := by
    intro entry listed
    obtain ⟨collection, member, name, -⟩ := exists_of_mem_right sound'.axes listed
    unfold Narrows
    rw [equal] at member ⊢
    cases given : view.table.given restriction entry.1 with
    | none => exact ⟨entry, rfl, rfl⟩
    | some v =>
      rw [name] at given ⊢
      obtain ⟨wanted, read⟩ := wanted_of_subset sound narrowed member given
      exact ⟨(collection.1, entry.2.narrow wanted), rfl, wanted, read, rfl⟩
  obtain ⟨axes, steps⟩ := exists_forall₂ each
  exact ⟨_, subset_ok (equal ▸ checked) steps⟩

/-- A restriction that is known is not refused for anything unknown, if it is refused at all. -/
theorem subset_of_knows (sound : view.Sound) (named : view.table.IsNamed)
    (keys : ∀ name ∈ restriction.keys, name.isKey = true) (knows : view.table.Knows restriction) :
    Ends (view.subset restriction) (fun _ => True) fun failure => ¬failure.IsUnknown := by
  obtain ⟨-, _, checked⟩ | ⟨not, -⟩ :=
    Table.checkNames_decides sound.table named keys fun name held => .inl (knows.names name held)
  swap
  · exact absurd knows.names not
  rw [subset, checked, ok_bind]
  refine (Ends.mapM fun entry listed => ?_).bind fun axes _ => .inl ⟨_, rfl, trivial⟩
  obtain ⟨collection, member, same, -⟩ := exists_of_mem_right sound.axes listed
  obtain ⟨name, axis⟩ := entry
  obtain rfl : name = collection.1 := same
  dsimp only
  cases given : view.table.given restriction collection.1 with
  | none => exact .inl ⟨_, rfl, trivial⟩
  | some v =>
    have wanted : Ends (view.table.wanted collection.1 v) (fun _ => True) fun failure => ¬failure.IsUnknown := by
      rcases Table.meant_ends sound.table member v with ⟨values, read, rfl⟩ | ⟨failure, refused, cause⟩
      · rw [Table.wanted, read, ok_bind]
        refine Ends.mapM fun meant among => ?_
        have held := knows.elements collection member v given meant among
        obtain ⟨-, place, found⟩ | ⟨not, -⟩ := Table.indexOf_decides sound.table named member (.inl held)
        · exact .inl ⟨place, by rw [found]; rfl, trivial⟩
        · exact absurd held not
      · exact .inr ⟨failure, by rw [Table.wanted, refused]; rfl, cause⟩
    exact wanted.bind fun places _ => .inl ⟨_, rfl, trivial⟩

section

variable {p q : Keyed Value} {first second both swapped again : View}

theorem ids_of_swapped (sound : table.Sound) (reached : Of table view) (left : view.subset p = .ok first)
    (right : view.subset q = .ok second) (further : first.subset q = .ok both)
    (other : second.subset p = .ok swapped) : both.ids = swapped.ids := by
  have firstReached := Of.subset reached left
  have secondReached := Of.subset reached right
  refine ids_ext sound (.subset firstReached further) (.subset secondReached other) fun row member => ?_
  rw [has_subset (firstReached.sound sound) further (firstReached.table_eq ▸ member),
    has_subset (reached.sound sound) left (reached.table_eq ▸ member),
    has_subset (secondReached.sound sound) other (secondReached.table_eq ▸ member),
    has_subset (reached.sound sound) right (reached.table_eq ▸ member),
    firstReached.table_eq, secondReached.table_eq, reached.table_eq, Bool.and_right_comm]

theorem ids_of_repeated (sound : table.Sound) (reached : Of table view) (narrowed : view.subset p = .ok next)
    (repeated : next.subset p = .ok again) : again.ids = next.ids := by
  have nextReached := Of.subset reached narrowed
  refine ids_ext sound (.subset nextReached repeated) nextReached fun row member => ?_
  rw [has_subset (nextReached.sound sound) repeated (nextReached.table_eq ▸ member),
    has_subset (reached.sound sound) narrowed (reached.table_eq ▸ member), nextReached.table_eq, reached.table_eq,
    Bool.and_assoc, Bool.and_self]

end

/-- A narrower view lists those identifiers of the wider one whose rows lie in the restriction. -/
theorem ids_filtered (sound : table.Sound) (reached : Of table view) (narrowed : view.subset restriction = .ok next) :
    ∃ keep : String → Bool, next.ids = view.ids.filter keep ∧
      ∀ id ∈ view.ids, ∃ row ∈ table.rows, view.encode (.tuple row) = .ok id ∧
        keep id = table.lies restriction row := by
  have viewed := reached.sound sound
  have nextReached := Of.subset reached narrowed
  refine ⟨(· ∈ next.ids), (filter_of_sublist (nodup_ids viewed) (ids_sublist viewed narrowed)).symm,
    fun id listed => ?_⟩
  obtain ⟨row, member, has, equal⟩ := (mem_ids_iff viewed).mp listed
  have filtered := has_subset viewed narrowed member
  rw [has, Bool.true_and] at filtered
  rw [reached.table_eq] at filtered member equal
  refine ⟨row, member, (encode_row viewed (reached.table_eq ▸ member)).mpr ⟨has, reached.table_eq ▸ equal⟩, ?_⟩
  rw [← filtered, Bool.eq_iff_iff, decide_eq_true_eq, mem_ids_iff (nextReached.sound sound), nextReached.table_eq]
  constructor
  · rintro ⟨other, member', held, equal'⟩
    rwa [← Table.identify_injective sound member' member (equal'.trans equal.symm)]
  · exact fun held => ⟨row, member, held, equal⟩

/-- A restriction that can be read again and again. -/
def Lasting (p : Keyed Value) : Prop := ∀ entry ∈ p, entry.2.isStream = false

/-- Restrictions of any view that comes of narrowing a space again and again. Nothing is refused as unknown but a
restriction that names an unknown collection or lists what is no element of its collection; each of these is, and any
other narrows the view, if its elements can be listed and what is unknown can be written. What is left of the view
are, in their order, the identifiers of just those tuples whose elements are among those that the restriction stands
for. Two restrictions may be made in either order, and one that is repeated changes nothing. -/
theorem subset_filters {collections : Keyed Value} (mapping : collections.IsMapping)
    (texts : ∀ name ∈ collections.keys, ∃ s, name = .text s) (built : Table.build collections = .ok table)
    (reached : Of table view) :
    (∀ p : Keyed Value, p.IsMapping →
      ((∃ failure, view.subset p = .error failure ∧ failure.IsUnknown) → ¬table.Knows p) ∧
      (table.Spells p → ¬table.Knows p → ∃ failure, view.subset p = .error failure ∧ failure.IsUnknown) ∧
      (table.Spells p → table.Knows p → ∃ next, view.subset p = .ok next)) ∧
    (∀ p next, view.subset p = .ok next → table.Knows p ∧
      ∃ keep : String → Bool, next.ids = view.ids.filter keep ∧
        ∀ id ∈ view.ids, ∃ row ∈ table.rows, view.encode (.tuple row) = .ok id ∧ keep id = table.lies p row) ∧
    (∀ p q first second, Lasting p → Lasting q → view.subset p = .ok first → view.subset q = .ok second →
      ∃ both swapped, first.subset q = .ok both ∧ second.subset p = .ok swapped ∧ both.ids = swapped.ids) ∧
    (∀ p next, Lasting p → view.subset p = .ok next →
      ∃ again, next.subset p = .ok again ∧ again.ids = next.ids) := by
  have whole := Table.sound_of_build mapping built
  have sound := reached.sound whole
  have named : view.table.IsNamed := by
    intro name held
    rw [reached.table_eq, Table.names_of_build built] at held
    exact texts name held
  refine ⟨fun p restricts => ?_, fun p next narrowed => ?_, fun p q first second _ _ left right => ?_,
    fun p next _ narrowed => ?_⟩
  · rw [← reached.table_eq]
    refine ⟨?_, fun spells not => ?_, fun spells knows => ?_⟩
    · rintro ⟨failure, refused, unknown⟩ knows
      rcases subset_of_knows sound named restricts.keys knows with ⟨next, narrowed, -⟩ | ⟨other, refused', cause⟩
      · cases refused.symm.trans narrowed
      · cases refused.symm.trans refused'
        exact cause unknown
    · exact ((subset_decides sound named restricts.keys spells).resolve_left fun both => not both.1).2
    · exact ((subset_decides sound named restricts.keys spells).resolve_right fun both => both.1 knows).2
  · exact ⟨reached.table_eq ▸ knows_of_subset sound narrowed, ids_filtered whole reached narrowed⟩
  · obtain ⟨firstTable, secondTable⟩ := And.intro (subset_eq_ok left).1 (subset_eq_ok right).1
    obtain ⟨both, further⟩ := subset_of_subset sound (sound.subset left) firstTable right
    obtain ⟨swapped, other⟩ := subset_of_subset sound (sound.subset right) secondTable left
    exact ⟨both, swapped, further, other, ids_of_swapped whole reached left right further other⟩
  · obtain ⟨again, repeated⟩ := subset_of_subset sound (sound.subset narrowed) (subset_eq_ok narrowed).1 narrowed
    exact ⟨again, repeated, ids_of_repeated whole reached narrowed repeated⟩

/-- A tuple that is an element stands for itself and not for its items. -/
theorem subset_filters_of_element : ∃ table next,
    Table.build [(.text "a", .list [.tuple [.text "x", .text "y"], .text "x", .text "y"])] = .ok table ∧
    (whole table).subset [(.text "a", .tuple [.text "x", .text "y"])] = .ok next ∧
    (∃ keep : String → Bool, next.ids = (whole table).ids.filter keep ∧
      ∀ id ∈ (whole table).ids, ∃ row ∈ table.rows, (whole table).encode (.tuple row) = .ok id ∧
        keep id = table.lies [(.text "a", .tuple [.text "x", .text "y"])] row) ∧
    ∃ again, next.subset [(.text "a", .tuple [.text "x", .text "y"])] = .ok again ∧ again.ids = next.ids := by
  obtain ⟨table, roster, built, shape, keys⟩ := Table.exists_single (.text "a")
    [.tuple [.text "x", .text "y"], .text "x", .text "y"] ⟨by decide, by decide⟩
  obtain ⟨known, filtered, -, repeated⟩ := subset_filters ⟨by decide, by decide⟩
    (by simp [Keyed.keys]) built .whole
  have whole : Value.standsFor roster.keys (.tuple [.text "x", .text "y"]) = [.tuple [.text "x", .text "y"]] := by
    rw [keys]
    rfl
  have knows : table.Knows [(.text "a", .tuple [.text "x", .text "y"])] := by
    rw [Table.knows_single shape rfl, whole, List.forall_mem_singleton, Table.holds, keys]
    decide
  have spells : table.Spells [(.text "a", .tuple [.text "x", .text "y"])] := by
    refine knows.spells fun collection _ v given => .inr (.inr ?_)
    rw [Table.given_of_lasting (by simp [Value.isStream])] at given
    obtain ⟨_, held, -⟩ := (Keyed.get?_eq_some ⟨by decide, by decide⟩).mp given
    cases List.mem_singleton.mp held
    exact ⟨_, rfl⟩
  obtain ⟨next, narrowed⟩ := (known _ ⟨by decide, by decide⟩).2.2 spells knows
  have lasting : Lasting [(Value.text "a", .tuple [.text "x", .text "y"])] := by simp [Lasting, Value.isStream]
  exact ⟨table, next, built, narrowed, (filtered _ _ narrowed).2, repeated _ _ lasting narrowed⟩

/-- A range of ever more numbers is refused before any of them is looked up, although none is an element. -/
theorem unlisted_of_long_range : ∃ table, Table.build [(.text "a", .list [.text "x"])] = .ok table ∧
    ¬table.Knows [(.text "a", .range 0 (2 ^ 63) 1)] ∧
    ∃ failure, (whole table).subset [(.text "a", .range 0 (2 ^ 63) 1)] = .error failure ∧ ¬failure.IsUnknown := by
  obtain ⟨table, roster, built, shape, keys⟩ := Table.exists_single (.text "a") [.text "x"] ⟨by decide, by decide⟩
  have sound : table.Sound := Table.sound_of_build ⟨by decide, by decide⟩ built
  have member : (Value.text "a", roster) ∈ table.collections := by simp [shape]
  refine ⟨table, built, fun knows => ?_, .tooLarge, ?_, by decide⟩
  · have listed : Value.int 0 ∈ Value.standsFor roster.keys (.range 0 (2 ^ 63) 1) := by
      rw [keys, Value.standsFor, if_neg (by decide), Value.items?, Option.getD_some, Value.rangeItems, List.mem_map]
      exact ⟨0, List.mem_range.mpr (by decide), rfl⟩
    have held := (Table.knows_single shape rfl).mp knows _ listed
    rw [Table.holds, keys] at held
    revert held
    decide
  · have refused : table.wanted (.text "a") (.range 0 (2 ^ 63) 1) = .error .tooLarge := by
      rw [Table.wanted, Table.meant_eq sound member, keys]
      rfl
    have looked := Table.collection_of_mem sound member
    have given : table.given [(Value.text "a", Value.range 0 (2 ^ 63) 1)] (.text "a") = some (.range 0 (2 ^ 63) 1) :=
      Table.given_of_lasting (by simp [Value.isStream]) _
    simp only [subset, Table.checkNames, Table.checkName, Keyed.keys, List.map_cons, List.map_nil, View.whole,
      Keyed.mapData, shape, looked, given, refused, List.mapM_cons, ok_bind, error_bind, pure_eq_ok]

end View

end Matchmaking
