import Mathlib.Algebra.BigOperators.Ring.List
import Mathlib.Algebra.GroupWithZero.Nat
import Mathlib.Data.List.Nodup
import Matchmaking.Proofs.Space.View

/-! Tuples and identifiers of views, there and back. Just the tuples of listed elements have an
identifier, it is the same in every view, and decoding gives the tuple back; the identifiers are
listed once each, and a view is as long as its listing. -/
namespace Matchmaking

namespace View

/-- Whether a view lists an element that a value is the same as. -/
def Lists (view : View) (name v : Value) : Prop :=
  ∃ listed, view.elements name = .ok listed ∧ ∃ e ∈ listed, e.same v = true

variable {table : Table} {view : View} {row : List Int} {tuple : List Value}

theorem decode_axes (sound : table.Sound) {collections : Keyed Roster} {axes : Keyed Axis}
    (fits : Fits collections axes) (part : ∀ entry ∈ collections, entry ∈ table.collections)
    (failure : Failure) (length : row.length = axes.length) :
    ((axes.zip row).mapM fun ((name, axis), position) =>
      if axis.contains position then table.elementAt name position else .error failure) = .ok tuple ↔
      List.Forall₂ (· ∈ ·) row (axes.map (·.2.positions)) ∧ Placed collections row tuple := by
  rw [mapM_eq_ok]
  induction fits generalizing row tuple with
  | nil =>
    obtain rfl : row = [] := by simpa using length
    constructor
    · intro steps
      cases steps
      exact ⟨.nil, .nil⟩
    · rintro ⟨-, placed⟩
      cases placed
      exact .nil
  | @cons collection entry collections axes first rest ih =>
    obtain ⟨p, others, rfl⟩ := List.exists_cons_of_length_eq_add_one length
    have part' := List.forall_mem_cons.mp part
    have length : others.length = axes.length := by simpa using length
    have element (e : Value) :
        (if entry.2.contains p then table.elementAt entry.1 p else .error failure) = .ok e ↔
          p ∈ entry.2.positions ∧ 0 ≤ p ∧ collection.2.keys[p.toNat]? = some e := by
      rw [first.1, ← Table.elementAt_eq_ok sound part'.1, ← Axis.contains_iff]
      split <;> simp_all
    constructor
    · intro steps
      cases steps with
      | @cons _ e _ tuple step steps =>
        obtain ⟨member, nonneg, found⟩ := (element e).mp step
        obtain ⟨members, placed⟩ := (ih part'.2 length).mp steps
        exact ⟨.cons member members, .cons nonneg found placed⟩
    · rintro ⟨members, placed⟩
      cases members with
      | cons member members =>
        cases placed with
        | cons nonneg found placed =>
          exact .cons ((element _).mpr ⟨member, nonneg, found⟩)
            ((ih part'.2 length).mpr ⟨members, placed⟩)

theorem decode_eq_ok (sound : view.Sound) {v : Value} :
    view.decode v = .ok tuple ↔ ∃ row, Identifier.read v = .ok row ∧ view.covers row = true ∧
      Placed view.table.collections row tuple := by
  rw [decode, bind_eq_ok]
  refine exists_congr fun row => and_congr_right fun _ => ?_
  split
  · rename_i wrong
    simp only [reduceCtorEq, false_iff, not_and]
    intro covered
    exact absurd (by simpa [positions] using (covers_iff.mp covered).length_eq) wrong
  · rename_i length
    rw [decode_axes sound.table sound.axes (fun _ member => member) _ (Decidable.not_not.mp length), covers_iff,
      positions]

theorem index_eq_ok (sound : table.Sound) {collection : Value × Roster}
    (member : collection ∈ table.collections) (axis : Axis) (failure : Failure) {v : Value} {p : Int} :
    (do let index : Int ← table.indexOf collection.1 v
        if axis.contains index then return index else .error failure) = .ok p ↔
      p ∈ axis.positions ∧ 0 ≤ p ∧ ∃ e, collection.2.keys[p.toNat]? = some e ∧ e.same v = true := by
  rw [← Axis.contains_iff]
  constructor
  · intro step
    obtain ⟨_, place, step⟩ := bind_eq_ok.mp step
    obtain ⟨i, found, equal⟩ := bind_eq_ok.mp place
    cases equal
    split at step
    · rename_i inside
      cases step
      exact ⟨inside, Int.natCast_nonneg i, by simpa using (Table.indexOf_eq_ok sound member).mp found⟩
    · cases step
  · rintro ⟨inside, nonneg, listed⟩
    have place := (Table.indexOf_eq_ok sound member).mpr listed
    have back : (p.toNat : Int) = p := Int.toNat_of_nonneg nonneg
    simp [place, back, inside]

theorem encode_axes (sound : table.Sound) {collections : Keyed Roster} {axes : Keyed Axis}
    (fits : Fits collections axes) (part : ∀ entry ∈ collections, entry ∈ table.collections)
    {items : List Value} (length : items.length = axes.length) :
    ((axes.zip items).mapM fun ((name, axis), element) => do
      let index : Int ← table.indexOf name element
      if axis.contains index then return index else .error (.outsideElement name element)) = .ok row ↔
      List.Forall₂ (· ∈ ·) row (axes.map (·.2.positions)) ∧
        ∃ tuple, Placed collections row tuple ∧ Value.sameAll tuple items = true := by
  rw [mapM_eq_ok]
  induction fits generalizing row items with
  | nil =>
    obtain rfl : items = [] := by simpa using length
    constructor
    · intro steps
      cases steps
      exact ⟨.nil, [], .nil, rfl⟩
    · rintro ⟨members, -⟩
      cases members
      exact .nil
  | @cons collection entry collections axes first rest ih =>
    obtain ⟨v, others, rfl⟩ := List.exists_cons_of_length_eq_add_one length
    have part' := List.forall_mem_cons.mp part
    have length : others.length = axes.length := by simpa using length
    have index (p : Int) :
        (do let index : Int ← table.indexOf entry.1 v
            if entry.2.contains index then return index
            else .error (.outsideElement entry.1 v)) = .ok p ↔
          p ∈ entry.2.positions ∧ 0 ≤ p ∧ ∃ e, collection.2.keys[p.toNat]? = some e ∧ e.same v = true := by
      rw [first.1]
      exact index_eq_ok sound part'.1 entry.2 _
    constructor
    · intro steps
      cases steps with
      | @cons _ p _ row step steps =>
        obtain ⟨member, nonneg, e, found, same⟩ := (index p).mp step
        obtain ⟨members, tuple, placed, others⟩ := (ih part'.2 length).mp steps
        exact ⟨.cons member members, e :: tuple, .cons nonneg found placed,
          by simp [Value.sameAll, same, others]⟩
    · rintro ⟨members, tuple, placed, same⟩
      cases members with
      | cons member members =>
        cases placed with
        | cons nonneg found placed =>
          simp only [Value.sameAll, Bool.and_eq_true] at same
          exact .cons ((index _).mpr ⟨member, nonneg, _, found, same.1⟩)
            ((ih part'.2 length).mpr ⟨members, _, placed, same.2⟩)

theorem encode_eq_ok (sound : view.Sound) {t : Value} {id : String} :
    view.encode t = .ok id ↔ ∃ items row tuple, t.items = .ok items ∧ view.covers row = true ∧
      Placed view.table.collections row tuple ∧ Value.sameAll tuple items = true ∧
      id = Identifier.write row := by
  rw [encode, bind_eq_ok]
  refine exists_congr fun items => ?_
  constructor
  · rintro ⟨read, step⟩
    split at step
    · cases step
    · rename_i length
      obtain ⟨row, found, step⟩ := bind_eq_ok.mp step
      obtain ⟨members, tuple, placed, same⟩ :=
        (encode_axes sound.table sound.axes (fun _ member => member) (Decidable.not_not.mp length)).mp found
      cases step
      exact ⟨row, tuple, read, covers_iff.mpr members, placed, same, rfl⟩
  · rintro ⟨row, tuple, read, covered, placed, same, rfl⟩
    have length : items.length = view.axes.length := by
      rw [← Value.length_eq_of_sameAll same, placed.length_tuple, sound.length_axes]
    refine ⟨read, ?_⟩
    rw [if_neg (not_not_intro length), bind_eq_ok]
    exact ⟨row, (encode_axes sound.table sound.axes (fun _ member => member) length).mpr
      ⟨covers_iff.mp covered, tuple, placed, same⟩, rfl⟩

theorem axis_of_mem (sound : view.Sound) {entry : Value × Axis} (member : entry ∈ view.axes) :
    view.axis entry.1 = .ok entry.2 := by
  have mapping : view.axes.IsMapping := by
    rw [Keyed.IsMapping, sound.keys_axes]
    exact sound.table.names
  obtain ⟨collection, present, equal, -⟩ := exists_of_mem_right sound.axes member
  have known : view.table.checkName entry.1 = .ok () := by
    rw [equal, Table.checkName, Table.collection_of_mem sound.table present]
    rfl
  simp [axis, known, Keyed.get?_of_mem mapping member]

theorem lists_iff_of_mem (sound : view.Sound) {collection : Value × Roster} {entry : Value × Axis}
    (member : collection ∈ view.table.collections) (member' : entry ∈ view.axes)
    (name : entry.1 = collection.1) (within : entry.2.Within collection.2.size) {v : Value} :
    view.Lists collection.1 v ↔ ∃ p e, p ∈ entry.2.positions ∧ 0 ≤ p ∧
      collection.2.keys[p.toNat]? = some e ∧ e.same v = true := by
  have elements (listed : List Value) : view.elements collection.1 = .ok listed ↔
      List.Forall₂ (fun p e => 0 ≤ p ∧ collection.2.keys[p.toNat]? = some e) entry.2.positions listed := by
    rw [View.elements, ← name, axis_of_mem sound member', ok_bind, mapM_eq_ok, name]
    simp only [Table.elementAt_eq_ok sound.table member]
  constructor
  · rintro ⟨listed, read, e, inside, same⟩
    obtain ⟨p, position, nonneg, found⟩ := exists_of_mem_right ((elements listed).mp read) inside
    exact ⟨p, e, position, nonneg, found, same⟩
  · rintro ⟨p, e, position, nonneg, found, same⟩
    have each : ∀ p ∈ entry.2.positions, ∃ e, 0 ≤ p ∧ collection.2.keys[p.toNat]? = some e := by
      intro p position
      obtain ⟨nonneg, bound⟩ := within.range p position
      have below : p.toNat < collection.2.keys.length := by
        rw [Roster.length_keys]
        omega
      exact ⟨_, nonneg, List.getElem?_eq_getElem below⟩
    obtain ⟨listed, related⟩ := exists_forall₂ each
    obtain ⟨e', inside, -, found'⟩ := exists_of_mem_right related.flip position
    cases found.symm.trans found'
    exact ⟨listed, (elements listed).mpr related, e, inside, same⟩

theorem lists_axes (sound : view.Sound) {collections : Keyed Roster} {axes : Keyed Axis}
    (fits : Fits collections axes) (part : ∀ entry ∈ collections, entry ∈ view.table.collections)
    (part' : ∀ entry ∈ axes, entry ∈ view.axes) {items : List Value} :
    List.Forall₂ view.Lists collections.keys items ↔ ∃ row tuple,
      List.Forall₂ (· ∈ ·) row (axes.map (·.2.positions)) ∧ Placed collections row tuple ∧
        Value.sameAll tuple items = true := by
  induction fits generalizing items with
  | nil =>
    constructor
    · intro listed
      cases listed
      exact ⟨[], [], .nil, .nil, rfl⟩
    · rintro ⟨row, tuple, -, placed, same⟩
      cases placed
      have empty := Value.length_eq_of_sameAll same
      rw [List.eq_nil_of_length_eq_zero empty.symm]
      exact .nil
  | @cons collection entry collections axes first rest ih =>
    obtain ⟨member, later⟩ := List.forall_mem_cons.mp part
    obtain ⟨member', later'⟩ := List.forall_mem_cons.mp part'
    have here (v : Value) := lists_iff_of_mem sound member member' first.1 first.2 (v := v)
    constructor
    · intro listed
      cases listed with
      | cons lists others =>
        obtain ⟨p, e, position, nonneg, found, same⟩ := (here _).mp lists
        obtain ⟨row, tuple, members, placed, equal⟩ := (ih later later').mp others
        exact ⟨p :: row, e :: tuple, .cons position members, .cons nonneg found placed,
          by simp [Value.sameAll, same, equal]⟩
    · rintro ⟨row, tuple, members, placed, same⟩
      cases placed with
      | cons nonneg found placed =>
        cases members with
        | cons position members =>
          cases items with
          | nil => simp [Value.sameAll] at same
          | cons v items =>
            simp only [Value.sameAll, Bool.and_eq_true] at same
            exact .cons ((here v).mpr ⟨_, _, position, nonneg, found, same.1⟩)
              ((ih later later').mpr ⟨_, _, members, placed, same.2⟩)

/-- A tuple of listed elements is one that a covered row of positions stands for. -/
theorem lists_iff (sound : view.Sound) {items : List Value} :
    List.Forall₂ view.Lists view.names items ↔ ∃ row tuple, view.covers row = true ∧
      Placed view.table.collections row tuple ∧ Value.sameAll tuple items = true := by
  simp only [covers_iff]
  exact lists_axes sound sound.axes (fun _ member => member) fun _ member => member

theorem encode_succeeds_iff (sound : view.Sound) {t : Value} :
    (∃ id, view.encode t = .ok id) ↔
      ∃ items, t.items = .ok items ∧ List.Forall₂ view.Lists view.names items := by
  simp only [encode_eq_ok sound, lists_iff sound]
  constructor
  · rintro ⟨id, items, row, tuple, read, covered, placed, same, -⟩
    exact ⟨items, read, row, tuple, covered, placed, same⟩
  · rintro ⟨items, read, row, tuple, covered, placed, same⟩
    exact ⟨_, items, row, tuple, read, covered, placed, same, rfl⟩

/-- The positions of a table's elements can be read if no collection is too large. -/
theorem read_placed (some : view.axes ≠ []) (sound : view.Sound)
    (small : ∀ entry ∈ view.table.collections, entry.2.size ≤ 10 ^ Numeral.digitLimit)
    (placed : Placed view.table.collections row tuple) :
    Identifier.read (.text (Identifier.write row)) = .ok row :=
  Identifier.read_write (placed.row_ne_nil sound some) fun p member =>
    ⟨placed.nonneg p member, placed.bound small p member⟩

theorem decode_encode (some : view.axes ≠ []) (sound : view.Sound)
    (small : ∀ entry ∈ view.table.collections, entry.2.size ≤ 10 ^ Numeral.digitLimit)
    {t : Value} {items : List Value} {id : String} (read : t.items = .ok items)
    (encoded : view.encode t = .ok id) : id ∈ view.ids ∧
      ∃ tuple, view.decode (.text id) = .ok tuple ∧ Value.equal (.tuple tuple) (.tuple items) = true := by
  obtain ⟨items', row, tuple, read', covered, placed, same, rfl⟩ := (encode_eq_ok sound).mp encoded
  cases read.symm.trans read'
  refine ⟨mem_ids.mpr ⟨some, row, covered, rfl⟩, tuple, ?_, by simpa [Value.equal, Value.isNaN, Value.same]⟩
  exact (decode_eq_ok sound).mpr ⟨row, read_placed some sound small placed, covered, placed⟩

theorem encode_decode (sound : view.Sound)
    (small : ∀ entry ∈ view.table.collections, entry.2.size ≤ 10 ^ Numeral.digitLimit)
    {id : String} (listed : id ∈ view.ids) :
    ∃ tuple, view.decode (.text id) = .ok tuple ∧ view.encode (.tuple tuple) = .ok id := by
  obtain ⟨some, row, covered, rfl⟩ := mem_ids.mp listed
  obtain ⟨tuple, placed⟩ := sound.placed covered
  refine ⟨tuple, (decode_eq_ok sound).mpr ⟨row, read_placed some sound small placed, covered, placed⟩,
    (encode_eq_ok sound).mpr ⟨tuple, row, tuple, rfl, covered, placed, ?_, rfl⟩⟩
  exact placed.sameAll_refl sound.table.elements

theorem encode_whole (sound : view.Sound) {t : Value} {id : String} (encoded : view.encode t = .ok id) :
    (whole view.table).encode t = .ok id := by
  obtain ⟨items, row, tuple, read, covered, placed, same, rfl⟩ := (encode_eq_ok sound).mp encoded
  exact (encode_eq_ok (sound_whole sound.table)).mpr
    ⟨items, row, tuple, read, covers_whole placed, placed, same, rfl⟩

/-- Tuples with the same identifier are equal, whichever views they are encoded in. -/
theorem encode_injective {other : View} (some : view.axes ≠ []) (sound : view.Sound)
    (sound' : other.Sound) (table : view.table = other.table) {t u : Value} {items items' : List Value}
    {id : String} (read : t.items = .ok items) (read' : u.items = .ok items')
    (first : view.encode t = .ok id) (second : other.encode u = .ok id) :
    Value.equal (.tuple items) (.tuple items') = true := by
  obtain ⟨_, row, tuple, again, -, placed, same, equal⟩ := (encode_eq_ok sound).mp first
  obtain ⟨_, row', tuple', again', -, placed', same', equal'⟩ := (encode_eq_ok sound').mp second
  cases read.symm.trans again
  cases read'.symm.trans again'
  rw [← table] at placed'
  have rows : row = row' :=
    Identifier.write_injective (placed.row_ne_nil sound some) (placed'.row_ne_nil sound some)
      placed.nonneg placed'.nonneg (equal.symm.trans equal')
  subst rows
  cases placed.tuple_unique placed'
  have key := placed.isKey_tuple sound.table.elements
  have left : Value.same (.tuple tuple) (.tuple items) = true := by simpa [Value.same] using same
  have right : Value.same (.tuple tuple) (.tuple items') = true := by simpa [Value.same] using same'
  simpa [Value.equal, Value.isNaN] using
    Value.same_trans (Value.isKey_of_same key left) (Value.same_symm key left) right

theorem nodup_ids (sound : view.Sound) : view.ids.Nodup := by
  have single : ∀ axis ∈ view.positions, axis.Nodup := by
    intro axis member
    obtain ⟨entry, inside, rfl⟩ := List.mem_map.mp member
    obtain ⟨collection, -, -, within⟩ := exists_of_mem_right sound.axes inside
    exact within.nodup
  refine List.Nodup.map_on (fun row member row' member' equal => ?_) (nodup_tuples single)
  obtain ⟨some, covered⟩ := mem_tuples.mp member
  obtain ⟨tuple, placed⟩ := sound.placed (covers_iff.mpr covered)
  obtain ⟨tuple', placed'⟩ := sound.placed (covers_iff.mpr (mem_tuples.mp member').2)
  have some : view.axes ≠ [] := by simpa [positions] using some
  exact Identifier.write_injective (placed.row_ne_nil sound some) (placed'.row_ne_nil sound some)
    placed.nonneg placed'.nonneg equal

theorem size_eq (view : View) : view.size = view.ids.length := by
  rw [size, ids, List.length_map, isEmpty]
  by_cases empty : view.axes = []
  · simp [empty, positions]
  · have some : view.positions ≠ [] := by simpa [positions] using empty
    rw [tuples_eq_choices some]
    split
    · rename_i closed
      rw [choices_eq_nil (by simpa [empty] using closed), List.length_nil]
    · rw [length_choices, List.prod_eq_foldl]

theorem isEmpty_iff (view : View) : view.isEmpty = true ↔ view.ids = [] := by
  rw [← List.length_eq_zero_iff, ← size_eq, size]
  split
  · simp_all
  · rename_i some
    refine iff_of_false some fun product => some ?_
    rw [← List.prod_eq_foldl] at product
    have closed : ∃ axis ∈ view.positions, axis = [] := by simpa using product
    rw [isEmpty, Bool.or_eq_true, List.any_eq_true]
    exact .inr (by simpa using closed)

theorem axes_ne_nil {collections : Keyed Value} (built : Table.build collections = .ok table)
    (some : collections ≠ []) (sound : view.Sound) (equal : view.table = table) : view.axes ≠ [] := by
  intro empty
  have length := congrArg List.length (Table.names_of_build built)
  rw [Table.names, Keyed.keys, Keyed.keys, List.length_map, List.length_map, ← equal, ← sound.length_axes, empty] at length
  exact some (List.eq_nil_of_length_eq_zero length.symm)

/-- Identifiers and tuples of every view of a table over at least one collection: a tuple has an
identifier just if it is one of listed elements, which then is listed, decoded to that tuple and
the same in the whole space; listed identifiers are decoded to what has them as identifier; each
is listed once, as many as the view is long; and equal identifiers are those of equal tuples. -/
theorem round_trip {collections : Keyed Value} (mapping : collections.IsMapping)
    (some : collections ≠ []) (built : Table.build collections = .ok table)
    (small : ∀ entry ∈ table.collections, entry.2.size < 10 ^ Numeral.digitLimit)
    (reached : Of table view) :
    (∀ t, (∃ id, view.encode t = .ok id) ↔
      ∃ items, t.items = .ok items ∧ List.Forall₂ view.Lists view.names items) ∧
    (∀ t items id, t.items = .ok items → view.encode t = .ok id → id ∈ view.ids ∧
      (∃ tuple, view.decode (.text id) = .ok tuple ∧
        Value.equal (.tuple tuple) (.tuple items) = true) ∧
      (whole table).encode t = .ok id) ∧
    (∀ id ∈ view.ids, ∃ tuple, view.decode (.text id) = .ok tuple ∧
      view.encode (.tuple tuple) = .ok id) ∧
    view.ids.Nodup ∧ view.size = view.ids.length ∧
    view.length = Value.counted view.ids.length ∧
    (view.isEmpty = true ↔ view.ids = []) ∧
    (∀ other, Of table other → ∀ t u items items' id, t.items = .ok items → u.items = .ok items' →
      view.encode t = .ok id → other.encode u = .ok id →
        Value.equal (.tuple items) (.tuple items') = true) := by
  have sound := reached.sound (Table.sound_of_build mapping built)
  have axes := axes_ne_nil built some sound reached.table_eq
  obtain rfl := reached.table_eq
  have small : ∀ entry ∈ view.table.collections, entry.2.size ≤ 10 ^ Numeral.digitLimit :=
    fun entry member => Nat.le_of_lt (small entry member)
  refine ⟨fun t => encode_succeeds_iff sound, ?_, fun id => encode_decode sound small, nodup_ids sound,
    size_eq view, by rw [length, size_eq], isEmpty_iff view, ?_⟩
  · intro t items id read encoded
    obtain ⟨listed, decoded⟩ := decode_encode axes sound small read encoded
    exact ⟨listed, decoded, encode_whole sound encoded⟩
  · intro other reached' t u items items' id read read' first second
    have sound' := reached'.sound (Table.sound_of_build mapping built)
    exact encode_injective axes sound sound' reached'.table_eq.symm read read' first second

theorem subset_nil (view : View) : view.subset [] = .ok ⟨view.table, .subset, view.axes⟩ := by
  have axes : view.axes.mapM (fun entry => (.ok entry : Except Failure _)) = .ok view.axes := by
    simpa using mapM_ok id view.axes
  simp [subset, Table.checkNames, Keyed.keys, Table.given, Keyed.get?, axes]

theorem ids_single {name : Value} {roster : Roster} (shape : table.collections = [(name, roster)])
    (one : roster.size = 1) : (whole table).ids = ["v0"] := by
  rw [ids, positions, whole, shape]
  simp only [Keyed.mapData, one, List.map_cons, List.map_nil]
  rfl

/-- Two collections, narrowed once by a restriction of nothing. -/
theorem round_trip_of_two : ∃ table view,
    Table.build [(.text "a", .list [.int 0, .int 1]), (.text "b", .list [.text "x"])] = .ok table ∧
    Of table view ∧ view.ids.Nodup ∧ ∀ id ∈ view.ids, ∃ tuple, view.decode (.text id) = .ok tuple ∧
      view.encode (.tuple tuple) = .ok id := by
  have mapping : Keyed.IsMapping [(Value.text "a", Value.list [.int 0, .int 1]), (.text "b", .list [.text "x"])] :=
    ⟨by decide, by decide⟩
  have different : ∀ given ∈ Keyed.inTurn [] [(Value.text "a", Value.list [.int 0, .int 1]), (.text "b", .list [.text "x"])],
      ∃ items, given.2.items = .ok items ∧ items.length < 10 ∧ Value.Different items := by
    intro given member
    rcases List.mem_pair.mp member with rfl | rfl
    · exact ⟨_, rfl, by decide, by decide, by decide⟩
    · exact ⟨_, rfl, by decide, by decide, by decide⟩
  obtain ⟨table, built⟩ := Table.build_ok fun given member =>
    (different given member).imp fun _ found => ⟨found.1, found.2.2⟩
  have large (limit : Nat) (positive : limit ≠ 0) : 10 ≤ 10 ^ limit := Nat.le_self_pow positive 10
  have small : ∀ entry ∈ table.collections, entry.2.size < 10 ^ Numeral.digitLimit := by
    intro entry member
    obtain ⟨given, inside, -, read, -⟩ := exists_of_mem_right (Table.build_eq_ok built) member
    obtain ⟨items, found, few, -⟩ := different given inside
    cases found.symm.trans read
    rw [← Roster.length_keys]
    exact Nat.lt_of_lt_of_le few (large _ (Nat.succ_ne_zero _))
  have reached : Of table _ := .subset .whole (subset_nil (whole table))
  obtain ⟨-, -, listed, once, -⟩ := round_trip mapping (List.cons_ne_nil _ _) built small reached
  exact ⟨table, _, built, reached, once, listed⟩

end View

end Matchmaking
