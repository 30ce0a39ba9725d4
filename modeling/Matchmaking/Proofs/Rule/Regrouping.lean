import Matchmaking.Proofs.Rule.Marker

/-! A marker map regrouped by marker, as a whole. Under each marker stand the collections with
elements that carry it, each with just these elements in the order of the map; the pairs are the
ways to take two of these collections. -/
namespace Matchmaking.MarkerMap

variable {map : MarkerMap}

def carries (marker : Value) (x : Value × Value) : Bool :=
  ((markers x.2).toOption.getD []).any (·.same marker)

def all (map : MarkerMap) : List Value :=
  (map.inTurn []).flatMap fun entry => entry.2.flatMap fun x => (markers x.2).toOption.getD []

def labels (map : MarkerMap) : List Value := Value.distinct map.all

def carriers (marker : Value) (elements : Keyed Value) : List Value :=
  Keyed.keys (elements.filter (carries marker))

/-- The collections with elements that carry a marker, each with these elements. -/
def bearers (map : MarkerMap) (marker : Value) : Bearers :=
  Keyed.mapData (carriers marker) ((map.inTurn []).filter fun entry => entry.2.any (carries marker))

/-- Markers, single or listed, all of which can be keys. -/
def IsMarked (map : MarkerMap) : Prop :=
  ∀ entry ∈ map.inTurn [], ∀ x ∈ entry.2, ∃ values, markers x.2 = .ok values ∧ ∀ v ∈ values, v.isKey = true

theorem markings_eq (marked : map.IsMarked) : map.markings = .ok ((map.inTurn []).flatMap fun entry =>
    entry.2.flatMap fun x => ((markers x.2).toOption.getD []).map (·, entry.1, x.1)) := by
  have rows : List.Forall₂ (fun entry row => (entry.2.mapM fun x => do
      return (← (← markers x.2).mapM Value.asKey).map (·, entry.1, x.1)) = .ok row)
      (map.inTurn []) ((map.inTurn []).map fun entry => entry.2.map fun x => ((markers x.2).toOption.getD []).map (·, entry.1, x.1)) := by
    refine List.forall₂_map_right_iff.mpr (List.forall₂_same.mpr fun entry listed => ?_)
    rw [mapM_eq_ok, List.forall₂_map_right_iff, List.forall₂_same]
    intro x member
    obtain ⟨values, read, keys⟩ := marked entry listed x member
    have checked : values.mapM Value.asKey = .ok values :=
      mapM_eq_ok.mpr (List.forall₂_same.mpr fun v inside => Value.asKey_eq_ok.mpr ⟨keys v inside, rfl⟩)
    rw [read, ok_bind, checked]
    rfl
  refine bind_eq_ok.mpr ⟨_, mapM_eq_ok.mpr rows, ?_⟩
  simp only [pure_eq_ok, List.flatten_flatten, List.flatMap_def, List.map_map, Function.comp_def]

def times (marker : Value) (x : Value × Value) : Nat :=
  ((markers x.2).toOption.getD []).countP (·.same marker)

theorem times_pos (marker : Value) (x : Value × Value) : decide (0 < times marker x) = carries marker x := by
  rw [Bool.eq_iff_iff, decide_eq_true_eq, times, List.countP_pos_iff, carries, List.any_eq_true]

/-- The elements given a marker, in the order of the map, each as often as it is given it. -/
def given (map : MarkerMap) (marker : Value) : List (Value × Value) :=
  (map.inTurn []).flatMap fun entry => entry.2.flatMap fun x => List.replicate (times marker x) (entry.1, x.1)

theorem filter_markings (marker : Value) : (((map.inTurn []).flatMap fun entry => entry.2.flatMap fun x =>
      ((markers x.2).toOption.getD []).map (·, entry.1, x.1)).filter (·.1.same marker)).map (·.2) = map.given marker := by
  simp only [given, times, List.filter_flatMap, List.map_flatMap, List.filter_map, List.map_map, Function.comp_def,
    List.map_const', ← List.countP_eq_length_filter]

theorem isKey_given (mapping : map.IsMapping) (marker : Value) : ∀ x ∈ map.given marker, x.1.isKey = true := by
  intro x member
  obtain ⟨entry, listed, member⟩ := List.mem_flatMap.mp member
  obtain ⟨_, -, member⟩ := List.mem_flatMap.mp member
  rw [List.eq_of_mem_replicate member]
  exact mapping.inTurn.collections.keys _ (List.mem_map_of_mem listed)

theorem given_names (mapping : map.IsMapping) (marker : Value) :
    Value.distinct ((map.given marker).map (·.1)) = Keyed.keys ((map.inTurn []).filter fun entry => entry.2.any (carries marker)) := by
  have row (entry : Value × Keyed Value) :
      (entry.2.flatMap fun x => List.replicate (times marker x) entry.1) =
        List.replicate (entry.2.map (times marker)).sum entry.1 :=
    List.eq_replicate_iff.mpr ⟨by simp [List.length_flatMap], by simp⟩
  have some (entry : Value × Keyed Value) :
      decide (0 < (entry.2.map (times marker)).sum) = entry.2.any (carries marker) := by
    rw [Bool.eq_iff_iff, decide_eq_true_eq, List.sum_pos_iff_exists_pos_nat, List.any_eq_true]
    simp only [List.mem_map, exists_exists_and_eq_and, ← times_pos, decide_eq_true_eq]
  have names : (map.given marker).map (·.1) =
      (map.inTurn []).flatMap fun entry => List.replicate (entry.2.map (times marker)).sum entry.1 := by
    rw [given, List.map_flatMap]
    simp only [List.map_flatMap, List.map_replicate, row]
  rw [names, Value.distinct_copies mapping.inTurn.collections]
  simp only [some]
  rfl

theorem given_elements (mapping : map.IsMapping) (marker : Value) {entry : Value × Keyed Value} (member : entry ∈ map.inTurn []) :
    Value.distinct (((map.given marker).filter (·.1.same entry.1)).map (·.2)) = carriers marker entry.2 := by
  have split (other : Value × Keyed Value) :
      (other.2.flatMap fun x => List.replicate (times marker x) (other.1, x.1)).filter (·.1.same entry.1) =
        if other.1.same entry.1 then other.2.flatMap fun x => List.replicate (times marker x) (other.1, x.1) else [] := by
    split <;> rename_i same <;> simp [List.filter_flatMap, same]
  have own : ((map.given marker).filter (·.1.same entry.1)).map (·.2) =
      entry.2.flatMap fun x => List.replicate (times marker x) x.1 := by
    rw [given, List.filter_flatMap]
    simp only [split]
    rw [mapping.inTurn.collections.flatMap_same member, List.map_flatMap]
    simp only [List.map_replicate]
  rw [own, Value.distinct_copies (mapping.inTurn.elements entry member)]
  simp only [times_pos]
  rfl

/-- The map regrouped by marker: each marker with the collections whose elements carry it, each with just these. -/
theorem byMarker_eq (mapping : map.IsMapping) (marked : map.IsMarked) :
    map.byMarker = .ok (map.labels.map fun marker => (marker, map.bearers marker)) := by
  rw [byMarker, markings_eq marked, ok_bind, pure_eq_ok]
  have keys := (mem_markings (markings_eq marked)).1
  have markers : (((map.inTurn []).flatMap fun entry => entry.2.flatMap fun x =>
      ((markers x.2).toOption.getD []).map (·, entry.1, x.1)).map (·.1)) = map.all := by
    simp only [all, List.map_flatMap, List.map_map, Function.comp_def, List.map_id']
  rw [Keyed.group_eq_map keys, markers, Keyed.mapData, List.map_map, labels]
  refine congrArg _ (List.map_congr_left fun marker _ => Prod.ext rfl ?_)
  dsimp only [Function.comp_apply]
  rw [filter_markings, Keyed.group_eq_map (isKey_given mapping marker), given_names mapping, Keyed.mapData, Keyed.keys,
    List.map_map, List.map_map]
  refine List.map_congr_left fun entry member => Prod.ext rfl ?_
  exact given_elements mapping marker (List.mem_of_mem_filter member)

theorem mem_all {v : Value} :
    v ∈ map.all ↔ ∃ entry ∈ map.inTurn [], ∃ x ∈ entry.2, v ∈ (markers x.2).toOption.getD [] := by
  simp only [all, List.mem_flatMap]

theorem mem_bearers {marker : Value} {bearer : Value × List Value} : bearer ∈ map.bearers marker ↔
    ∃ entry ∈ map.inTurn [], (∃ x ∈ entry.2, carries marker x = true) ∧ bearer = (entry.1, carriers marker entry.2) := by
  simp only [bearers, Keyed.mapData, List.mem_map, List.mem_filter, List.any_eq_true, and_assoc,
    eq_comm (b := bearer)]

theorem mem_carriers {marker e : Value} {elements : Keyed Value} :
    e ∈ carriers marker elements ↔ ∃ x ∈ elements, carries marker x = true ∧ x.1 = e := by
  simp only [carriers, Keyed.keys, List.mem_map, List.mem_filter, and_assoc]

theorem bearers_isMapping (mapping : map.IsMapping) (marker : Value) : (map.bearers marker).IsMapping := by
  rw [bearers, Keyed.IsMapping, Keyed.keys_mapData]
  exact mapping.inTurn.collections.sublist (List.filter_sublist.map _)

/-- The markers that elements carry are listed, each once and with the collections that have such elements. -/
theorem labels_exact (marked : map.IsMarked) : Value.Different map.labels ∧
    (∀ marker, (∃ label ∈ map.labels, label.same marker = true) ↔
      ∃ entry ∈ map.inTurn [], ∃ x ∈ entry.2, carries marker x = true) ∧
    ∀ marker ∈ map.labels, map.bearers marker ≠ [] ∧ ∀ bearer ∈ map.bearers marker, bearer.2 ≠ [] := by
  have keys : ∀ v ∈ map.all, v.isKey = true := by
    intro v member
    obtain ⟨entry, listed, x, held, member⟩ := mem_all.mp member
    obtain ⟨values, read, keys⟩ := marked entry listed x held
    rw [read] at member
    exact keys v member
  have borne (marker : Value) : (∃ label ∈ map.labels, label.same marker = true) ↔
      ∃ entry ∈ map.inTurn [], ∃ x ∈ entry.2, carries marker x = true := by
    constructor
    · rintro ⟨label, listed, same⟩
      obtain ⟨entry, inside, x, held, member⟩ := mem_all.mp (Value.mem_distinct listed)
      exact ⟨entry, inside, x, held, List.any_eq_true.mpr ⟨label, member, same⟩⟩
    · rintro ⟨entry, inside, x, held, carried⟩
      obtain ⟨v, given, same⟩ := List.any_eq_true.mp carried
      have listed := mem_all.mpr ⟨entry, inside, x, held, given⟩
      obtain ⟨label, distinct, equal⟩ := Value.exists_distinct listed (keys v listed)
      exact ⟨label, distinct, Value.same_trans (keys label (Value.mem_distinct distinct)) equal same⟩
  refine ⟨Value.different_distinct keys, borne, fun marker member => ⟨?_, fun bearer bears none => ?_⟩⟩
  · have self := Value.same_refl (keys marker (Value.mem_distinct member))
    obtain ⟨entry, inside, some⟩ := (borne marker).mp ⟨marker, member, self⟩
    exact List.ne_nil_of_mem (mem_bearers.mpr ⟨entry, inside, some, rfl⟩)
  · obtain ⟨entry, -, ⟨x, held, carried⟩, rfl⟩ := mem_bearers.mp bears
    exact List.ne_nil_of_mem (mem_carriers.mpr ⟨x, held, carried, rfl⟩) none

theorem bearers_of_same (marked : map.IsMarked) {label marker : Value} (key : label.isKey = true)
    (same : label.same marker = true) : map.bearers label = map.bearers marker := by
  have agree : ∀ entry ∈ map.inTurn [], ∀ x ∈ entry.2, carries label x = carries marker x := by
    intro entry listed x held
    obtain ⟨values, read, keys⟩ := marked entry listed x held
    rw [carries, carries, read, Bool.eq_iff_iff, List.any_eq_true, List.any_eq_true]
    refine exists_congr fun v => and_congr_right fun given => ?_
    have own := keys v given
    exact ⟨fun left => Value.same_trans own left same,
      fun right => Value.same_trans own right (Value.same_symm key same)⟩
  have some : ∀ entry ∈ map.inTurn [], entry.2.any (carries label) = entry.2.any (carries marker) := by
    intro entry listed
    rw [Bool.eq_iff_iff, List.any_eq_true, List.any_eq_true]
    exact exists_congr fun x => and_congr_right fun held => by rw [agree entry listed x held]
  rw [bearers, bearers, List.filter_congr some]
  refine List.map_congr_left fun entry listed => Prod.ext rfl (congrArg Keyed.keys ?_)
  exact List.filter_congr (agree entry (List.mem_of_mem_filter listed))

/-- An element carries a marker if it is among the bearers of its collection. -/
theorem marks_any {marker collection e : Value} : (map.marks collection e).any (·.same marker) = true ↔
    ∃ bearer ∈ map.bearers marker, bearer.1.same collection = true ∧ ∃ other ∈ bearer.2, other.same e = true := by
  simp only [List.any_eq_true, mem_marks, mem_bearers]
  constructor
  · rintro ⟨v, ⟨entry, listed, named, x, held, same, given⟩, sameMarker⟩
    have carried : carries marker x = true := List.any_eq_true.mpr ⟨v, given, sameMarker⟩
    exact ⟨_, ⟨entry, listed, ⟨x, held, carried⟩, rfl⟩, named, x.1, mem_carriers.mpr ⟨x, held, carried, rfl⟩, same⟩
  · rintro ⟨_, ⟨entry, listed, -, rfl⟩, named, other, inside, same⟩
    obtain ⟨x, held, carried, rfl⟩ := mem_carriers.mp inside
    obtain ⟨v, given, sameMarker⟩ := List.any_eq_true.mp carried
    exact ⟨v, ⟨entry, listed, named, x, held, same, given⟩, sameMarker⟩

theorem nodup_laterPairs {α : Type} {xs : List α} (once : xs.Nodup) : (laterPairs xs).Nodup := by
  induction xs with
  | nil => exact .nil
  | cons x rest ih =>
    obtain ⟨fresh, once⟩ := List.nodup_cons.mp once
    have first : (rest.map (x, ·)).Nodup := once.map fun _ _ equal => (Prod.mk.inj equal).2
    refine List.nodup_append.mpr ⟨first, ih once, ?_⟩
    rintro _ here ⟨a, b⟩ later rfl
    obtain ⟨other, -, equal⟩ := List.mem_map.mp here
    exact fresh ((Prod.mk.inj equal).1 ▸ (mem_of_laterPairs once later).1)

theorem laterPairs_asymm {α : Type} {xs : List α} (once : xs.Nodup) {a b : α} (first : (a, b) ∈ laterPairs xs) :
    (b, a) ∉ laterPairs xs := by
  induction xs with
  | nil => cases first
  | cons x rest ih =>
    obtain ⟨fresh, once⟩ := List.nodup_cons.mp once
    intro second
    simp only [laterPairs, List.mem_append, List.mem_map, Prod.mk.injEq, exists_eq_right_right] at first second
    rcases first with ⟨later, rfl⟩ | first
    · rcases second with ⟨-, rfl⟩ | second
      · exact fresh later
      · exact fresh (mem_of_laterPairs once second).2.1
    · rcases second with ⟨-, rfl⟩ | second
      · exact fresh (mem_of_laterPairs once first).2.1
      · exact ih once first second

/-- The ways to take two collections that carry a marker, as restrictions of a space. -/
def pairsOf (map : MarkerMap) (marker : Value) : List Bearers :=
  (laterPairs (map.bearers marker)).map fun (outer, inner) => [outer, inner]

theorem pairs_eq (mapping : map.IsMapping) (marked : map.IsMarked) :
    map.pairs = .ok (map.labels.flatMap map.pairsOf) := by
  rw [pairs, byMarker_eq mapping marked, ok_bind, pure_eq_ok, List.flatMap_map]
  rfl

theorem mem_pairsOf {marker : Value} {outer inner : Value × List Value} :
    [outer, inner] ∈ map.pairsOf marker ↔ (outer, inner) ∈ laterPairs (map.bearers marker) := by
  simp [pairsOf, List.mem_map]

/-- Any two different collections that carry a marker make one pair, in one order, and no others do. -/
theorem pairsOf_exact (mapping : map.IsMapping) (marker : Value) : (map.pairsOf marker).Nodup ∧
    (∀ pair ∈ map.pairsOf marker, ∃ outer ∈ map.bearers marker, ∃ inner ∈ map.bearers marker,
      outer.1.same inner.1 = false ∧ pair = [outer, inner]) ∧
    ∀ outer ∈ map.bearers marker, ∀ inner ∈ map.bearers marker, outer.1.same inner.1 = false →
      ([outer, inner] ∈ map.pairsOf marker ↔ [inner, outer] ∉ map.pairsOf marker) := by
  have bearers := bearers_isMapping mapping marker
  have once : (map.bearers marker).Nodup := .of_map _ bearers.nodup
  have apart : (map.bearers marker).Pairwise fun a b => a.1.same b.1 = false := List.pairwise_map.mp bearers.apart
  refine ⟨(nodup_laterPairs once).map fun first second equal => ?_, fun pair member => ?_,
    fun outer left inner right away => ?_⟩
  · simpa [Prod.ext_iff] using equal
  · obtain ⟨⟨outer, inner⟩, later, rfl⟩ := List.mem_map.mp member
    obtain ⟨left, right, away⟩ := mem_of_laterPairs apart later
    exact ⟨outer, left, inner, right, away, rfl⟩
  · rw [mem_pairsOf, mem_pairsOf]
    refine ⟨laterPairs_asymm once, fun not => (laterPairs_of_ne left right ?_).resolve_right not⟩
    rintro rfl
    rw [Value.same_refl (bearers.keys _ (List.mem_map_of_mem left))] at away
    cases away

end Matchmaking.MarkerMap
