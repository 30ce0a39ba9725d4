import Matchmaking.Proofs.Space.Restriction
import Matchmaking.Proofs.Value.Grouping
import Matchmaking.Rule.Marker

/-! Which elements share a marker. The pairs of bearers that a marker map comes to, as they are
regrouped by marker, are just those of elements of different collections with a marker in common. -/
namespace Matchmaking

namespace MarkerMap

structure IsMapping (map : MarkerMap) : Prop where
  collections : Keyed.IsMapping map
  elements : ∀ entry ∈ map, Keyed.IsMapping entry.2

theorem inTurn_related (map : MarkerMap) (read : List Nat) : List.Forall₂ (fun own turned : Value × Keyed Value =>
    turned.1 = own.1 ∧ turned.2.keys = own.2.keys) map (map.inTurn read) := by
  induction map generalizing read with
  | nil => exact .nil
  | cons entry rest ih => exact .cons ⟨rfl, Keyed.keys_inTurn entry.2⟩ (ih _)

theorem IsMapping.inTurn {map : MarkerMap} (mapping : map.IsMapping) {read : List Nat} :
    (map.inTurn read).IsMapping where
  collections := by
    rw [Keyed.IsMapping, ← Keyed.keys_eq_of_forall₂ (inTurn_related map read) fun _ _ step => step.1.symm]
    exact mapping.collections
  elements entry member := by
    obtain ⟨own, listed, -, keys⟩ := exists_of_mem_right (inTurn_related map read) member
    rw [Keyed.IsMapping, keys]
    exact mapping.elements own listed

/-- The markers that a map, read in turn, gives to an element of a collection. -/
def marks (map : MarkerMap) (collection e : Value) : List Value :=
  (map.inTurn []).flatMap fun (name, elements) => if name.same collection then
    elements.flatMap fun (other, datum) =>
      if other.same e then (markers datum).toOption.getD [] else []
  else []

variable {map : MarkerMap} {collection e marker : Value}

theorem mem_marks : marker ∈ map.marks collection e ↔ ∃ entry ∈ map.inTurn [], entry.1.same collection = true ∧
    ∃ marked ∈ entry.2, marked.1.same e = true ∧ marker ∈ (markers marked.2).toOption.getD [] := by
  simp only [marks, List.mem_flatMap, List.mem_ite_nil_right]

theorem markings_of_element {collection : Value} {x : Value × Value} {found : List (Value × Value × Value)}
    (step : (do return (← (← markers x.2).mapM Value.asKey).map (·, collection, x.1)) = .ok found) :
    found = ((markers x.2).toOption.getD []).map (·, collection, x.1) ∧
      ∀ marker ∈ (markers x.2).toOption.getD [], marker.isKey = true := by
  obtain ⟨values, listed, step⟩ := bind_eq_ok.mp step
  obtain ⟨keys, checked, step⟩ := bind_eq_ok.mp step
  cases step
  have key (v key : Value) (step : v.asKey = .ok key) : key = id v ∧ v.isKey = true :=
    ⟨(Value.asKey_eq_ok.mp step).2.symm, (Value.asKey_eq_ok.mp step).1⟩
  obtain ⟨rfl, each⟩ := mapM_spec key checked
  rw [listed, List.map_id]
  exact ⟨rfl, each⟩

theorem mem_all_markings (map : MarkerMap) {marking : Value × Value × Value} :
    marking ∈ (map.map fun entry => entry.2.map fun x =>
      ((markers x.2).toOption.getD []).map (·, entry.1, x.1)).flatten.flatten ↔
    ∃ entry ∈ map, ∃ x ∈ entry.2, ∃ marker ∈ (markers x.2).toOption.getD [],
      (marker, entry.1, x.1) = marking := by
  constructor
  · intro member
    obtain ⟨_, row, carried⟩ := List.mem_flatten.mp member
    obtain ⟨_, rows, row⟩ := List.mem_flatten.mp row
    obtain ⟨entry, inside, rfl⟩ := List.mem_map.mp rows
    obtain ⟨x, held, rfl⟩ := List.mem_map.mp row
    exact ⟨entry, inside, x, held, List.mem_map.mp carried⟩
  · rintro ⟨entry, inside, x, held, carried⟩
    exact List.mem_flatten.mpr ⟨_, List.mem_flatten.mpr ⟨_, List.mem_map_of_mem inside,
      List.mem_map_of_mem held⟩, List.mem_map.mpr carried⟩

theorem mem_markings {marked : List (Value × Value × Value)} (read : map.markings = .ok marked) :
    (∀ marking ∈ marked, marking.1.isKey = true) ∧ ∀ marker collection e,
      (marker, collection, e) ∈ marked ↔ ∃ elements, (collection, elements) ∈ map.inTurn [] ∧
        ∃ datum, (e, datum) ∈ elements ∧ marker ∈ (markers datum).toOption.getD [] := by
  obtain ⟨rows, found, read⟩ := bind_eq_ok.mp read
  cases read
  obtain ⟨rfl, each⟩ := mapM_spec (fun entry row step => mapM_spec (fun _ _ => markings_of_element) step) found
  refine ⟨fun marking member => ?_, fun marker collection e => ?_⟩
  · obtain ⟨entry, inside, x, held, marker, carried, rfl⟩ := (mem_all_markings _).mp member
    exact each entry inside x held marker carried
  · rw [mem_all_markings]
    constructor
    · rintro ⟨⟨name, elements⟩, inside, ⟨other, datum⟩, held, marker', carried, equal⟩
      cases equal
      exact ⟨elements, inside, datum, held, carried⟩
    · rintro ⟨elements, inside, datum, held, carried⟩
      exact ⟨_, inside, _, held, marker, carried, rfl⟩

theorem isKey_of_mem_markings (mapping : map.IsMapping) {marked : List (Value × Value × Value)}
    (read : map.markings = .ok marked) {marking : Value × Value × Value} (member : marking ∈ marked) :
    marking.1.isKey = true ∧ marking.2.1.isKey = true ∧ marking.2.2.isKey = true := by
  obtain ⟨markers, listed⟩ := mem_markings read
  obtain ⟨elements, inside, datum, held, -⟩ := (listed ..).mp member
  exact ⟨markers marking member, mapping.inTurn.collections.keys _ (List.mem_map.mpr ⟨_, inside, rfl⟩),
    (mapping.inTurn.elements _ inside).keys _ (List.mem_map.mpr ⟨_, held, rfl⟩)⟩

theorem bearers_spec (mapping : map.IsMapping) {marked : List (Value × Value × Value)}
    (read : map.markings = .ok marked) {filed : Value × List (Value × Value)}
    (member : filed ∈ Keyed.group marked) : (Keyed.group filed.2).IsMapping ∧
      ∀ bearer ∈ Keyed.group filed.2, bearer.1.isKey = true ∧ ∀ e ∈ bearer.2, e.isKey = true ∧
        ∃ marker ∈ map.marks bearer.1 e, filed.1.same marker = true := by
  have markers := (mem_markings read).1
  have origin {datum : Value × Value} (held : datum ∈ filed.2) :
      ∃ marker, (marker, datum) ∈ marked ∧ filed.1.same marker = true := by
    obtain ⟨marking, inside, same, rfl⟩ := (Keyed.mem_group markers member).mp held
    exact ⟨marking.1, inside, Value.same_symm (markers marking inside) same⟩
  have names : ∀ datum ∈ filed.2, datum.1.isKey = true := by
    intro datum held
    obtain ⟨marker, inside, -⟩ := origin held
    exact (isKey_of_mem_markings mapping read inside).2.1
  have grouped := Keyed.isMapping_group names
  refine ⟨grouped, fun bearer bears => ⟨grouped.keys _ (List.mem_map.mpr ⟨_, bears, rfl⟩), fun e held => ?_⟩⟩
  obtain ⟨⟨collection, e⟩, inside, same, rfl⟩ := (Keyed.mem_group names bears).mp held
  obtain ⟨marker, marking, sameMarker⟩ := origin inside
  have key := (isKey_of_mem_markings mapping read marking).2.2
  obtain ⟨elements, inMap, datum, marks, carried⟩ := ((mem_markings read).2 ..).mp marking
  exact ⟨key, marker, mem_marks.mpr ⟨_, inMap, same, _, marks, Value.same_refl key, carried⟩, sameMarker⟩

/-- The map regrouped by marker: mappings all through, with just the marked elements. -/
theorem byMarker_spec (mapping : map.IsMapping) {found : Keyed Bearers} (read : map.byMarker = .ok found) :
    found.IsMapping ∧ ∀ entry ∈ found, entry.2.IsMapping ∧ ∀ bearer ∈ entry.2, ∀ e ∈ bearer.2,
      e.isKey = true ∧ ∃ marker ∈ map.marks bearer.1 e, entry.1.same marker = true := by
  obtain ⟨marked, markings, read⟩ := bind_eq_ok.mp read
  cases read
  refine ⟨?_, fun entry member => ?_⟩
  · rw [Keyed.IsMapping, Keyed.keys_mapData]
    exact Keyed.isMapping_group (mem_markings markings).1
  · obtain ⟨data, filed, equal⟩ := Keyed.mem_mapData.mp member
    obtain ⟨grouped, bearers⟩ := bearers_spec mapping markings filed
    rw [← equal]
    refine ⟨by rw [Keyed.IsMapping, Keyed.keys_mapData]; exact grouped, fun bearer held e carried => ?_⟩
    obtain ⟨elements, bears, equal⟩ := Keyed.mem_mapData.mp held
    rw [← equal] at carried
    exact (bearers _ bears).2 e (Value.mem_distinct carried)

theorem byMarker_complete (mapping : map.IsMapping) {found : Keyed Bearers}
    (read : map.byMarker = .ok found) (carried : marker ∈ map.marks collection e) :
    ∃ entry ∈ found, entry.1.same marker = true ∧ ∃ bearer ∈ entry.2, bearer.1.same collection = true ∧
      ∃ other ∈ bearer.2, other.same e = true := by
  obtain ⟨marked, markings, read⟩ := bind_eq_ok.mp read
  cases read
  obtain ⟨markers, listed⟩ := mem_markings markings
  obtain ⟨⟨name, elements⟩, inMap, sameName, ⟨other, datum⟩, marks, sameElement, carried⟩ :=
    mem_marks.mp carried
  have origin : (marker, name, other) ∈ marked := (listed ..).mpr ⟨elements, inMap, datum, marks, carried⟩
  obtain ⟨filed, grouped, sameMarker, held⟩ := Keyed.exists_group markers origin
  have names : ∀ datum ∈ filed.2, datum.1.isKey = true := by
    intro datum held
    obtain ⟨marking, inside, -, rfl⟩ := (Keyed.mem_group markers grouped).mp held
    exact (isKey_of_mem_markings mapping markings inside).2.1
  obtain ⟨bearer, bears, same, held⟩ := Keyed.exists_group names held
  obtain ⟨key, elements⟩ := (bearers_spec mapping markings grouped).2 bearer bears
  obtain ⟨first, distinct, sameFirst⟩ := Value.exists_distinct held (elements other held).1
  have firstKey := (elements first (Value.mem_distinct distinct)).1
  have borne : (bearer.1, Value.distinct bearer.2) ∈ (Keyed.group filed.2).mapData Value.distinct :=
    Keyed.mem_mapData.mpr ⟨_, bears, rfl⟩
  have entry : (filed.1, (Keyed.group filed.2).mapData Value.distinct) ∈
      (Keyed.group marked).mapData fun marked => (Keyed.group marked).mapData Value.distinct :=
    Keyed.mem_mapData.mpr ⟨_, grouped, rfl⟩
  exact ⟨_, entry, sameMarker, _, borne, Value.same_trans key same sameName, first, distinct,
    Value.same_trans firstKey sameFirst sameElement⟩

theorem mem_of_laterPairs {α : Type} {R : α → α → Prop} {xs : List α} (apart : xs.Pairwise R) {a b : α}
    (member : (a, b) ∈ laterPairs xs) : a ∈ xs ∧ b ∈ xs ∧ R a b := by
  induction apart with
  | nil => cases member
  | @cons x rest first _ ih =>
    rcases List.mem_append.mp member with here | later
    · obtain ⟨other, inside, equal⟩ := List.mem_map.mp here
      cases equal
      exact ⟨List.mem_cons_self, List.mem_cons_of_mem _ inside, first b inside⟩
    · obtain ⟨left, right, related⟩ := ih later
      exact ⟨List.mem_cons_of_mem _ left, List.mem_cons_of_mem _ right, related⟩

theorem laterPairs_of_ne {α : Type} {xs : List α} {a b : α} (left : a ∈ xs) (right : b ∈ xs) (ne : a ≠ b) :
    (a, b) ∈ laterPairs xs ∨ (b, a) ∈ laterPairs xs := by
  induction xs with
  | nil => cases left
  | cons x rest ih =>
    simp only [laterPairs, List.mem_append, List.mem_map, Prod.mk.injEq]
    rcases List.mem_cons.mp left with rfl | inside
    · have later : b ∈ rest := (List.mem_cons.mp right).resolve_left ne.symm
      exact .inl (.inl ⟨b, later, rfl, rfl⟩)
    · rcases List.mem_cons.mp right with rfl | later
      · exact .inr (.inl ⟨a, inside, rfl, rfl⟩)
      · exact (ih inside later).imp .inr .inr

theorem mem_pairs {found : List Bearers} (read : map.pairs = .ok found) :
    ∃ grouped, map.byMarker = .ok grouped ∧ ∀ pair, pair ∈ found ↔
      ∃ entry ∈ grouped, ∃ outer inner, (outer, inner) ∈ laterPairs entry.2 ∧ pair = [outer, inner] := by
  obtain ⟨grouped, regrouped, read⟩ := bind_eq_ok.mp read
  cases read
  refine ⟨grouped, regrouped, fun pair => ?_⟩
  simp only [List.mem_flatMap, List.mem_map, Prod.exists, eq_comm]

theorem pairs_sound (mapping : map.IsMapping) {found : List Bearers} (read : map.pairs = .ok found)
    {pair : Bearers} (member : pair ∈ found) : ∃ outer inner, pair = [outer, inner] ∧
      pair.IsMapping ∧ (∀ bearer ∈ pair, ∀ e ∈ bearer.2, e.isKey = true) ∧
      ∀ e ∈ outer.2, ∀ e' ∈ inner.2,
        ∃ marker ∈ map.marks outer.1 e, ∃ marker' ∈ map.marks inner.1 e', marker.same marker' = true := by
  obtain ⟨grouped, regrouped, listed⟩ := mem_pairs read
  obtain ⟨entry, filed, outer, inner, later, rfl⟩ := (listed pair).mp member
  obtain ⟨keyed, spec⟩ := byMarker_spec mapping regrouped
  have entryKey := keyed.keys _ (List.mem_map.mpr ⟨_, filed, rfl⟩)
  obtain ⟨bearers, spec⟩ := spec entry filed
  have separate : entry.2.Pairwise fun a b => a.1.same b.1 = false := List.pairwise_map.mp bearers.apart
  obtain ⟨left, right, apart⟩ := mem_of_laterPairs separate later
  have pairOf : ∀ bearer ∈ [outer, inner], bearer ∈ entry.2 := by simp [left, right]
  refine ⟨outer, inner, rfl, ⟨?_, ?_⟩, fun bearer held e inside => (spec bearer (pairOf bearer held) e inside).1,
    fun e inside e' inside' => ?_⟩
  · intro name held
    obtain ⟨bearer, inside, rfl⟩ := List.mem_map.mp held
    exact bearers.keys _ (List.mem_map.mpr ⟨_, pairOf bearer inside, rfl⟩)
  · simpa [Keyed.keys] using apart
  · obtain ⟨-, marker, carried, same⟩ := spec outer left e inside
    obtain ⟨-, marker', carried', same'⟩ := spec inner right e' inside'
    have key := Value.isKey_of_same entryKey same
    exact ⟨marker, carried, marker', carried', Value.same_trans key (Value.same_symm entryKey same) same'⟩

/-- Bearers in pairs are collections of the map and elements that are marked there. -/
theorem pairs_listed (mapping : map.IsMapping) {found : List Bearers} (read : map.pairs = .ok found)
    {pair : Bearers} (member : pair ∈ found) {bearer : Value × List Value} (bears : bearer ∈ pair) :
    bearer.1 ∈ map.keys ∧ ∀ e ∈ bearer.2, ∃ entry ∈ map, e ∈ entry.2.keys := by
  obtain ⟨grouped, regrouped, listed⟩ := mem_pairs read
  obtain ⟨entry, filed, outer, inner, later, rfl⟩ := (listed pair).mp member
  obtain ⟨-, spec⟩ := byMarker_spec mapping regrouped
  obtain ⟨left, right, -⟩ := mem_of_laterPairs (List.pairwise_map.mp (spec entry filed).1.apart) later
  have held : bearer ∈ entry.2 := by
    rcases List.mem_pair.mp bears with rfl | rfl
    · exact left
    · exact right
  obtain ⟨marked, markings, regrouped⟩ := bind_eq_ok.mp regrouped
  cases regrouped
  obtain ⟨markers, origin⟩ := mem_markings markings
  obtain ⟨data, filed, equal⟩ := Keyed.mem_mapData.mp filed
  rw [← equal] at held
  obtain ⟨elements, held, equal⟩ := Keyed.mem_mapData.mp held
  have marking {datum : Value × Value} (inside : datum ∈ data) :
      ∃ entry ∈ map, entry.1 = datum.1 ∧ datum.2 ∈ entry.2.keys := by
    obtain ⟨marking, given, -, rfl⟩ := (Keyed.mem_group markers filed).mp inside
    obtain ⟨elements, inMap, _, marks, -⟩ := (origin ..).mp given
    obtain ⟨own, listed, name, keys⟩ := exists_of_mem_right (inTurn_related map []) inMap
    exact ⟨own, listed, name.symm, keys ▸ List.mem_map_of_mem marks⟩
  have names : ∀ datum ∈ data, datum.1.isKey = true := by
    intro datum inside
    obtain ⟨entry, inMap, name, -⟩ := marking inside
    exact name ▸ mapping.collections.keys _ (List.mem_map_of_mem inMap)
  constructor
  · obtain ⟨datum, inside, name⟩ := Keyed.mem_keys_group (List.mem_map_of_mem held)
    obtain ⟨entry, inMap, name', -⟩ := marking inside
    exact name ▸ name' ▸ List.mem_map_of_mem inMap
  · intro e carried
    rw [← equal] at carried
    obtain ⟨datum, inside, -, rfl⟩ := (Keyed.mem_group names held).mp (Value.mem_distinct carried)
    obtain ⟨entry, inMap, -, element⟩ := marking inside
    exact ⟨entry, inMap, element⟩

/-- Elements of a single collection make no pairs. -/
theorem pairs_of_single {elements : Keyed Value} (mapping : IsMapping [(collection, elements)]) {found : List Bearers}
    (read : pairs [(collection, elements)] = .ok found) : found = [] := by
  refine List.eq_nil_iff_forall_not_mem.mpr fun pair member => ?_
  obtain ⟨outer, inner, rfl, bearers, -⟩ := pairs_sound mapping read member
  have outerName := List.mem_singleton.mp (pairs_listed mapping read member List.mem_cons_self).1
  have innerName := List.mem_singleton.mp (pairs_listed mapping read member (List.mem_cons_of_mem _ List.mem_cons_self)).1
  have apart : outer.1.same inner.1 = false := by simpa [Keyed.keys] using bearers.apart
  rw [outerName, innerName, Value.same_refl (mapping.collections.keys _ List.mem_cons_self)] at apart
  cases apart

theorem pairs_complete (mapping : map.IsMapping) {found : List Bearers} (read : map.pairs = .ok found)
    {collection' e' marker' : Value} (carried : marker ∈ map.marks collection e)
    (carried' : marker' ∈ map.marks collection' e') (same : marker.same marker' = true)
    (apart : collection.same collection' = false) : ∃ outer inner : Value × List Value,
      ([outer, inner] ∈ found ∨ [inner, outer] ∈ found) ∧
      outer.1.same collection = true ∧ (∃ other ∈ outer.2, other.same e = true) ∧
      inner.1.same collection' = true ∧ ∃ other ∈ inner.2, other.same e' = true := by
  obtain ⟨grouped, regrouped, listed⟩ := mem_pairs read
  obtain ⟨entry, filed, sameMarker, bearer, bears, sameName, held⟩ :=
    byMarker_complete mapping regrouped carried
  obtain ⟨entry', filed', sameMarker', bearer', bears', sameName', held'⟩ :=
    byMarker_complete mapping regrouped carried'
  obtain ⟨keyed, bearers⟩ := byMarker_spec mapping regrouped
  have entryKey := keyed.keys _ (List.mem_map.mpr ⟨_, filed, rfl⟩)
  cases keyed.entry_unique filed filed' (Value.same_trans entryKey sameMarker same) sameMarker'
  have different : bearer ≠ bearer' := by
    rintro rfl
    have key := (bearers entry filed).1.keys _ (List.mem_map.mpr ⟨_, bears, rfl⟩)
    rw [Value.same_trans (Value.isKey_of_same key sameName) (Value.same_symm key sameName) sameName'] at apart
    cases apart
  refine ⟨bearer, bearer', ?_, sameName, held, sameName', held'⟩
  refine (laterPairs_of_ne bears bears' different).imp (fun later => ?_) fun later => ?_
  · exact (listed _).mpr ⟨entry, filed, bearer, bearer', later, rfl⟩
  · exact (listed _).mpr ⟨entry, filed, bearer', bearer, later, rfl⟩

/-- Whether two of a row's elements, of different collections, have a marker in common. -/
def shares (map : MarkerMap) (table : Table) (row : List Value) : Bool :=
  (table.names.zip row).any fun (name, e) => (table.names.zip row).any fun (name', e') =>
    !name.same name' && (map.marks name e).any fun marker => (map.marks name' e').any (marker.same ·)

variable {table : Table} {row : List Value}

theorem shares_iff : map.shares table row = true ↔ ∃ x ∈ table.collections.zip row,
    ∃ y ∈ table.collections.zip row, x.1.1.same y.1.1 = false ∧ ∃ marker ∈ map.marks x.1.1 x.2,
      ∃ marker' ∈ map.marks y.1.1 y.2, marker.same marker' = true := by
  simp only [shares, Table.names, Keyed.keys, List.zip_map_left, List.any_map, List.any_eq_true,
    Function.comp_apply, Prod.map_fst, Prod.map_snd, id, Bool.and_eq_true, Bool.not_eq_true']

theorem marks_of_same (mapping : map.IsMapping) {name other : Value} (carried : marker ∈ map.marks collection e)
    (sameName : collection.same name = true) (sameElement : e.same other = true) :
    marker ∈ map.marks name other := by
  obtain ⟨entry, inside, same, marked, held, same', carried⟩ := mem_marks.mp carried
  have key := mapping.inTurn.collections.keys _ (List.mem_map.mpr ⟨_, inside, rfl⟩)
  have key' := (mapping.inTurn.elements _ inside).keys _ (List.mem_map.mpr ⟨_, held, rfl⟩)
  exact mem_marks.mpr ⟨entry, inside, Value.same_trans key same sameName, marked, held,
    Value.same_trans key' same' sameElement, carried⟩

/-- A row lies in a restriction to bearers just if it holds one of the elements of each. -/
theorem lies_iff_held (sound : table.Sound) (member : row ∈ table.rows) {pair : Bearers} (bearers : pair.IsMapping)
    (keys : ∀ bearer ∈ pair, ∀ e ∈ bearer.2, e.isKey = true)
    (known : ∀ bearer ∈ pair, ∃ collection ∈ table.collections, collection.1.same bearer.1 = true) :
    table.lies (Keyed.mapData Value.list pair) row = true ↔ ∀ bearer ∈ pair,
      ∃ x ∈ table.collections.zip row, bearer.1.same x.1.1 = true ∧ ∃ e ∈ bearer.2, e.same x.2 = true := by
  rw [Table.lies_lists sound bearers]
  refine forall_congr' fun bearer => imp_congr_right fun inside => ?_
  constructor
  · intro lies
    obtain ⟨collection, present, same⟩ := known bearer inside
    obtain ⟨e, held⟩ := Table.exists_mem_zip member present
    have key := sound.names.keys _ (List.mem_map.mpr ⟨_, present, rfl⟩)
    obtain ⟨meant, among, equal⟩ := lies _ held (Value.same_symm key same)
    have elementKey := Table.isKey_of_mem_zip sound member held
    exact ⟨_, held, Value.same_symm key same, meant, among, Value.same_symm elementKey equal⟩
  · rintro ⟨x, first, sameName, e, among, sameElement⟩ y second sameName'
    have key := bearers.keys _ (List.mem_map.mpr ⟨_, inside, rfl⟩)
    have own := Value.isKey_of_same key sameName
    have one : y.1.1.same x.1.1 = true :=
      Value.same_trans (Value.isKey_of_same key sameName') (Value.same_symm key sameName') sameName
    cases Table.zip_unique sound member second first one (Value.same_refl own)
    exact ⟨e, among, Value.same_symm (keys _ inside e among) sameElement⟩

/-- The rows that share a marker are those that lie in one of the pairs. -/
theorem shares_iff_lies (sound : table.Sound) (mapping : map.IsMapping) {found : List Bearers}
    (read : map.pairs = .ok found) (known : ∀ pair ∈ found, ∀ bearer ∈ pair,
      ∃ collection ∈ table.collections, collection.1.same bearer.1 = true)
    (member : row ∈ table.rows) : map.shares table row = true ↔
      ∃ pair ∈ found, table.lies (Keyed.mapData Value.list pair) row = true := by
  rw [shares_iff]
  constructor
  · rintro ⟨x, first, y, second, apart, marker, carried, marker', carried', same⟩
    obtain ⟨outer, inner, paired, sameOuter, holds, sameInner, holds'⟩ :=
      pairs_complete mapping read carried carried' same apart
    have lies {pair : Bearers} (listed : pair ∈ found)
        (only : ∀ bearer ∈ pair, bearer = outer ∨ bearer = inner) :
        table.lies (Keyed.mapData Value.list pair) row = true := by
      obtain ⟨_, _, -, bearers, keys, -⟩ := pairs_sound mapping read listed
      refine (lies_iff_held sound member bearers keys (known pair listed)).mpr fun bearer inside => ?_
      rcases only bearer inside with rfl | rfl
      · exact ⟨x, first, sameOuter, holds⟩
      · exact ⟨y, second, sameInner, holds'⟩
    rcases paired with listed | listed
    · exact ⟨_, listed, lies listed (by simp)⟩
    · exact ⟨_, listed, lies listed (by simp [or_comm])⟩
  · rintro ⟨pair, listed, lies⟩
    obtain ⟨outer, inner, rfl, bearers, keys, common⟩ := pairs_sound mapping read listed
    have held := (lies_iff_held sound member bearers keys (known _ listed)).mp lies
    obtain ⟨x, first, sameOuter, e, among, sameElement⟩ := held outer List.mem_cons_self
    obtain ⟨y, second, sameInner, e', among', sameElement'⟩ := held inner (by simp)
    obtain ⟨marker, carried, marker', carried', same⟩ := common e among e' among'
    refine ⟨x, first, y, second, ?_, marker, marks_of_same mapping carried sameOuter sameElement,
      marker', marks_of_same mapping carried' sameInner sameElement', same⟩
    have apart : outer.1.same inner.1 = false := by
      simpa [Keyed.keys] using bearers.apart
    have outerKey := bearers.keys outer.1 (by simp [Keyed.keys])
    have innerKey := bearers.keys inner.1 (by simp [Keyed.keys])
    refine Bool.eq_false_iff.mpr fun joined => ?_
    rw [Value.same_trans outerKey sameOuter (Value.same_trans (Value.isKey_of_same outerKey sameOuter) joined
      (Value.same_symm innerKey sameInner))] at apart
    cases apart

end MarkerMap

end Matchmaking
