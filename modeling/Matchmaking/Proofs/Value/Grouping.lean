import Matchmaking.Proofs.Value.Mapping

/-! What is filed under keys and what is found again. Filing keeps a mapping a mapping and
changes what is found under its key alone; grouping finds under a key all data filed under the
same one, and values without repetitions have one of each that is the same as a given value. -/
namespace Matchmaking

variable {α β : Type}

namespace Keyed

theorem get?_cons (entry : Value × β) (rest : Keyed β) (name : Value) :
    get? (entry :: rest) name = if entry.1.same name then some entry.2 else rest.get? name := by
  unfold get?
  rw [List.find?_cons]
  cases entry.1.same name <;> rfl

theorem get?_mapData {γ : Type} (change : β → γ) (entries : Keyed β) (name : Value) :
    (entries.mapData change).get? name = (entries.get? name).map change := by
  induction entries with
  | nil => rfl
  | cons entry rest ih =>
    change get? ((entry.1, change entry.2) :: mapData change rest) name = _
    rw [get?_cons, get?_cons, ih]
    cases entry.1.same name <;> rfl

/-- Related data under the same keys, one by one, are found for one another. -/
theorem get?_of_forall₂_left {γ : Type} {R : β → γ → Prop} {entries : Keyed β} {others : Keyed γ} {name : Value}
    {datum : β} (related : List.Forall₂ (fun entry other => other.1 = entry.1 ∧ R entry.2 other.2) entries others) :
    entries.get? name = some datum → ∃ other, others.get? name = some other ∧ R datum other := by
  induction related with
  | nil => rintro ⟨⟩
  | @cons entry found rest others first _ ih =>
    rw [get?_cons, get?_cons, first.1]
    cases entry.1.same name with
    | true =>
      rintro ⟨⟩
      exact ⟨_, rfl, first.2⟩
    | false => exact ih

theorem get?_of_forall₂ {γ : Type} {R : β → γ → Prop} {entries : Keyed β} {others : Keyed γ} {name : Value} {other : γ}
    (related : List.Forall₂ (fun entry other => other.1 = entry.1 ∧ R entry.2 other.2) entries others) :
    others.get? name = some other → ∃ datum, entries.get? name = some datum ∧ R datum other :=
  get?_of_forall₂_left (R := fun other datum => R datum other)
    (related.flip.imp fun _ _ first => ⟨first.1.symm, first.2⟩)

theorem get?_of_same {entries : Keyed β} (each : ∀ entry ∈ entries, entry.1.isKey = true)
    {key name : Value} (isKey : key.isKey = true) (same : key.same name = true) :
    entries.get? key = entries.get? name := by
  induction entries with
  | nil => rfl
  | cons first rest ih =>
    obtain ⟨firstKey, others⟩ := List.forall_mem_cons.mp each
    have transfer : first.1.same key = first.1.same name := Bool.eq_iff_iff.mpr
      ⟨fun left => Value.same_trans firstKey left same,
        fun right => Value.same_trans firstKey right (Value.same_symm isKey same)⟩
    rw [get?_cons, get?_cons, transfer, ih others]

theorem IsMapping.alter {entries : Keyed β} (mapping : entries.IsMapping) {key : Value}
    (isKey : key.isKey = true) (change : Option β → β) : (entries.alter key change).IsMapping := by
  cases held : entries.has key
  · rw [alter_of_not_has held, IsMapping, keys, List.map_append]
    refine Value.Different.append_single mapping isKey fun other member => Bool.eq_false_iff.mpr ?_
    intro same
    rw [has_iff.mpr ⟨other, member, same⟩] at held
    cases held
  · rw [IsMapping, keys_alter held]
    exact mapping

theorem mem_keys_alter {entries : Keyed β} {key name : Value} {change : Option β → β}
    (member : name ∈ (entries.alter key change).keys) : name ∈ entries.keys ∨ name = key := by
  cases held : entries.has key
  · rw [alter_of_not_has held] at member
    simpa [keys] using member
  · rw [keys_alter held] at member
    exact .inl member

theorem mem_put {entries : Keyed β} {key : Value} {datum : β} {entry : Value × β}
    (member : entry ∈ entries.put key datum) : entry ∈ entries ∨ entry.2 = datum := by
  unfold put at member
  induction entries with
  | nil => exact .inr (by rw [List.mem_singleton.mp member])
  | cons first rest ih =>
    rw [Keyed.alter] at member
    split at member
    · rcases List.mem_cons.mp member with rfl | later
      · exact .inr rfl
      · exact .inl (List.mem_cons_of_mem _ later)
    · rcases List.mem_cons.mp member with rfl | later
      · exact .inl List.mem_cons_self
      · exact (ih later).imp (List.mem_cons_of_mem _) id

theorem get?_alter {entries : Keyed β} (keys : ∀ entry ∈ entries, entry.1.isKey = true) {key : Value}
    (isKey : key.isKey = true) (change : Option β → β) (name : Value) :
    (entries.alter key change).get? name =
      if key.same name then some (change (entries.get? key)) else entries.get? name := by
  induction entries with
  | nil => simp [Keyed.alter, get?]
  | cons first rest ih =>
    obtain ⟨firstKey, others⟩ := List.forall_mem_cons.mp keys
    unfold Keyed.alter
    cases matched : first.1.same key
    · simp only [Bool.false_eq_true, if_false, get?_cons, ih others, matched]
      by_cases here : key.same name = true
      · have apart : first.1.same name = false := by
          refine Bool.eq_false_iff.mpr fun same => ?_
          have back := Value.same_symm isKey here
          rw [Value.same_trans firstKey same back] at matched
          cases matched
        simp [here, apart]
      · simp [here]
    · have transfer : first.1.same name = key.same name := Bool.eq_iff_iff.mpr
        ⟨Value.same_trans isKey (Value.same_symm firstKey matched), Value.same_trans firstKey matched⟩
      simp only [get?_cons, matched, transfer, if_true]
      cases key.same name <;> rfl

theorem IsMapping.filter_same {entries : Keyed β} (mapping : entries.IsMapping) {entry : Value × β}
    (member : entry ∈ entries) : entries.filter (·.1.same entry.1) = [entry] := by
  induction entries with
  | nil => cases member
  | cons first rest ih =>
    obtain ⟨firstKey, keys⟩ := List.forall_mem_cons.mp mapping.keys
    obtain ⟨apart, others⟩ := List.pairwise_cons.mp mapping.apart
    rcases List.mem_cons.mp member with rfl | later
    · have none : rest.filter (·.1.same entry.1) = [] := by
        refine List.filter_eq_nil_iff.mpr fun other listed same => ?_
        have listed := List.mem_map_of_mem (f := (·.1)) listed
        exact Bool.false_ne_true ((apart _ listed).symm.trans (Value.same_symm (keys _ listed) same))
      rw [List.filter_cons_of_pos (by exact Value.same_refl firstKey), none]
    · have away : first.1.same entry.1 = false := apart _ (List.mem_map_of_mem later)
      rw [List.filter_cons_of_neg (by simp [away])]
      exact ih ⟨keys, others⟩ later

/-- What is made of the entry under a key is all that is made of the entries there. -/
theorem IsMapping.flatMap_same {γ : Type} {entries : Keyed β} (mapping : entries.IsMapping) {entry : Value × β}
    (member : entry ∈ entries) (items : Value × β → List γ) :
    (entries.flatMap fun other => if other.1.same entry.1 then items other else []) = items entry := by
  have picked : (entries.flatMap fun other => if other.1.same entry.1 then items other else []) =
      (entries.filter (·.1.same entry.1)).flatMap items := by
    clear mapping member
    induction entries with
    | nil => rfl
    | cons other rest ih => cases same : other.1.same entry.1 <;> simp [same, ih]
  rw [picked, mapping.filter_same member, List.flatMap_singleton]

theorem isMapping_group {pairs : List (Value × α)} (keys : ∀ pair ∈ pairs, pair.1.isKey = true) :
    (group pairs).IsMapping := by
  rw [group_eq]
  have grown (entries : Keyed (List α)) (mapping : entries.IsMapping) :
      IsMapping (pairs.foldl (fun entries pair =>
        Keyed.alter pair.1 (·.getD [] ++ [pair.2]) entries) entries) := by
    induction pairs generalizing entries with
    | nil => exact mapping
    | cons pair rest ih =>
      obtain ⟨first, others⟩ := List.forall_mem_cons.mp keys
      exact ih others _ (mapping.alter first _)
  exact grown [] .nil

theorem mem_keys_group {pairs : List (Value × α)} {name : Value} (member : name ∈ (group pairs).keys) :
    ∃ pair ∈ pairs, pair.1 = name := by
  rw [group_eq] at member
  have grown (entries : Keyed (List α)) (held : name ∈ keys (pairs.foldl (fun entries pair =>
      Keyed.alter pair.1 (·.getD [] ++ [pair.2]) entries) entries)) :
      name ∈ entries.keys ∨ ∃ pair ∈ pairs, pair.1 = name := by
    clear member
    induction pairs generalizing entries with
    | nil => exact .inl held
    | cons pair rest ih =>
      rcases ih _ held with early | ⟨other, later, named⟩
      · exact (mem_keys_alter early).imp_right fun here => ⟨pair, List.mem_cons_self, here.symm⟩
      · exact .inr ⟨other, List.mem_cons_of_mem _ later, named⟩
  exact (grown [] member).resolve_left (by simp [keys])

/-- Under a key are the data of all pairs whose key is the same, in their order. -/
theorem get?_group {pairs : List (Value × α)} (keys : ∀ pair ∈ pairs, pair.1.isKey = true) (name : Value) :
    ((group pairs).get? name).getD [] = (pairs.filter (·.1.same name)).map (·.2) := by
  rw [group_eq]
  have grown (entries : Keyed (List α)) (mapping : entries.IsMapping) :
      (get? (pairs.foldl (fun entries pair =>
        Keyed.alter pair.1 (·.getD [] ++ [pair.2]) entries) entries) name).getD [] =
      (entries.get? name).getD [] ++ (pairs.filter (·.1.same name)).map (·.2) := by
    induction pairs generalizing entries with
    | nil => simp
    | cons pair rest ih =>
      obtain ⟨first, others⟩ := List.forall_mem_cons.mp keys
      have each : ∀ entry ∈ entries, entry.1.isKey = true := fun entry member =>
        mapping.keys _ (List.mem_map.mpr ⟨entry, member, rfl⟩)
      rw [List.foldl_cons, ih others _ (mapping.alter first _), get?_alter each first]
      by_cases here : pair.1.same name = true
      · rw [if_pos here, get?_of_same each first here]
        simp [here]
      · simp [here]
  simpa [get?] using grown [] .nil

theorem mem_get?_group {pairs : List (Value × α)} (keys : ∀ pair ∈ pairs, pair.1.isKey = true)
    {name : Value} {datum : α} :
    datum ∈ ((group pairs).get? name).getD [] ↔
      ∃ pair ∈ pairs, pair.1.same name = true ∧ pair.2 = datum := by
  rw [get?_group keys]
  simp only [List.mem_map, List.mem_filter, and_assoc]

theorem mem_group {pairs : List (Value × α)} (each : ∀ pair ∈ pairs, pair.1.isKey = true)
    {entry : Value × List α} (member : entry ∈ group pairs) {datum : α} :
    datum ∈ entry.2 ↔ ∃ pair ∈ pairs, pair.1.same entry.1 = true ∧ pair.2 = datum := by
  rw [← mem_get?_group each, get?_of_mem (isMapping_group each) member, Option.getD_some]

theorem exists_group {pairs : List (Value × α)} (each : ∀ pair ∈ pairs, pair.1.isKey = true)
    {pair : Value × α} (member : pair ∈ pairs) :
    ∃ entry ∈ group pairs, entry.1.same pair.1 = true ∧ pair.2 ∈ entry.2 := by
  have held := (mem_get?_group each).mpr
    ⟨pair, member, Value.same_refl (each pair member), rfl⟩
  cases found : (group pairs).get? pair.1 with
  | none => simp [found] at held
  | some data =>
    obtain ⟨key, filed, same⟩ := (get?_eq_some (isMapping_group each)).mp found
    exact ⟨_, filed, same, by simpa [found] using held⟩

theorem keys_group (pairs : List (Value × α)) : (group pairs).keys = Value.distinct (pairs.map (·.1)) := by
  rw [group_eq]
  have grown (entries : Keyed (List α)) (roster : Roster) (same : entries.keys = roster.keys) :
      keys (pairs.foldl (fun entries pair => Keyed.alter pair.1 (·.getD [] ++ [pair.2]) entries) entries) =
        ((pairs.map (·.1)).foldl Roster.add roster).keys := by
    induction pairs generalizing entries roster with
    | nil => exact same
    | cons pair rest ih =>
      refine ih _ _ ?_
      have held : roster.has pair.1 = entries.has pair.1 := by
        rw [Filing.has_eq, Bool.eq_iff_iff, has_iff, has_iff, same]
        rfl
      rw [Roster.keys_add, held, ← same]
      cases known : entries.has pair.1
      · simp [alter_of_not_has known, keys]
      · simp [keys_alter known]
  exact grown [] .empty rfl

theorem group_eq_map {pairs : List (Value × α)} (each : ∀ pair ∈ pairs, pair.1.isKey = true) :
    group pairs = (Value.distinct (pairs.map (·.1))).map fun key =>
      (key, (pairs.filter (·.1.same key)).map (·.2)) := by
  rw [← keys_group, keys, List.map_map]
  conv_lhs => rw [← List.map_id (group pairs)]
  refine List.map_congr_left fun entry member => ?_
  rw [Function.comp_apply, ← get?_group each, get?_of_mem (isMapping_group each) member]
  rfl

theorem keys_mapData {γ : Type} (change : β → γ) (entries : Keyed β) :
    (entries.mapData change).keys = entries.keys := by
  simp [keys, mapData]

theorem mem_mapData {γ : Type} {change : β → γ} {entries : Keyed β} {entry : Value × γ} :
    entry ∈ entries.mapData change ↔ ∃ datum, (entry.1, datum) ∈ entries ∧ change datum = entry.2 := by
  constructor
  · intro member
    obtain ⟨source, inside, rfl⟩ := List.mem_map.mp member
    exact ⟨source.2, inside, rfl⟩
  · rintro ⟨datum, inside, equal⟩
    exact List.mem_map.mpr ⟨_, inside, Prod.ext rfl equal⟩

end Keyed

namespace Roster

variable {roster : Roster} {v : Value}

theorem keys_addCopies (fresh : roster.has v = false) (isKey : v.isKey = true) (count : Nat) :
    ((List.replicate (count + 1) v).foldl add roster).keys = roster.keys ++ [v] := by
  have again (count : Nat) (roster : Roster) (held : roster.has v = true) :
      ((List.replicate count v).foldl add roster).keys = roster.keys := by
    induction count generalizing roster with
    | zero => rfl
    | succ count ih =>
      have same : (add roster v).keys = roster.keys := by rw [keys_add, if_pos held]
      rw [List.replicate_succ, List.foldl_cons, ih _ (by rwa [has_iff, same, ← has_iff]), same]
  have joined : (add roster v).keys = roster.keys ++ [v] := by rw [keys_add, if_neg (by simp [fresh])]
  have self : (add roster v).has v = true := by
    rw [has_iff, joined]
    exact ⟨v, by simp, Value.same_refl isKey⟩
  rw [List.replicate_succ, List.foldl_cons, again count _ self, joined]

end Roster

namespace Value

theorem mem_distinct {values : List Value} {v : Value} (member : v ∈ distinct values) : v ∈ values := by
  have grown (roster : Roster) (held : v ∈ (values.foldl Roster.add roster).keys) :
      v ∈ roster.keys ∨ v ∈ values := by
    clear member
    induction values generalizing roster with
    | nil => exact .inl held
    | cons first rest ih =>
      rcases ih _ held with early | late
      · rw [Roster.keys_add] at early
        split at early
        · exact .inl early
        · rcases List.mem_append.mp early with old | new
          · exact .inl old
          · rw [List.mem_singleton.mp new]
            exact .inr List.mem_cons_self
      · exact .inr (List.mem_cons_of_mem _ late)
  exact (grown .empty member).resolve_left (by simp [Filing.keys, Filing.toKeyed, Filing.empty, Keyed.keys])

/-- Each value has one that is the same among those without repetitions. -/
theorem exists_distinct {values : List Value} {v : Value} (member : v ∈ values) (isKey : v.isKey = true) :
    ∃ other ∈ distinct values, other.same v = true := by
  have stays (values : List Value) (roster : Roster) {other : Value} (held : other ∈ roster.keys) :
      other ∈ (values.foldl Roster.add roster).keys := by
    induction values generalizing roster with
    | nil => exact held
    | cons first rest ih =>
      refine ih _ ?_
      rw [Roster.keys_add]
      split
      · exact held
      · exact List.mem_append_left _ held
  obtain ⟨before, after, rfl⟩ := List.append_of_mem member
  rw [distinct, Roster.ofList, List.foldl_append, List.foldl_cons]
  generalize before.foldl Roster.add .empty = roster
  have added : ∃ other ∈ (Roster.add roster v).keys, other.same v = true := by
    rw [Roster.keys_add]
    split
    · rename_i held
      rw [Filing.has_eq, Keyed.has_iff] at held
      exact held
    · exact ⟨v, by simp, same_refl isKey⟩
  obtain ⟨other, held, same⟩ := added
  exact ⟨other, stays after _ held, same⟩

theorem different_distinct {values : List Value} (keys : ∀ v ∈ values, v.isKey = true) :
    Different (distinct values) := by
  have mapping : Keyed.IsMapping (Keyed.group (values.map (·, ()))) := Keyed.isMapping_group (by simpa using keys)
  rwa [Keyed.IsMapping, Keyed.keys_group, List.map_map, Function.comp_def, List.map_id'] at mapping

theorem distinct_copies {xs : List α} {key : α → Value} (different : Different (xs.map key)) (copies : α → Nat) :
    distinct (xs.flatMap fun x => List.replicate (copies x) (key x)) = (xs.filter fun x => 0 < copies x).map key := by
  have grown (roster : Roster) (fresh : ∀ x ∈ xs, roster.has (key x) = false) :
      ((xs.flatMap fun x => List.replicate (copies x) (key x)).foldl Roster.add roster).keys =
        roster.keys ++ (xs.filter fun x => 0 < copies x).map key := by
    induction xs generalizing roster with
    | nil => simp
    | cons x xs ih =>
      obtain ⟨here, later⟩ := List.forall_mem_cons.mp fresh
      obtain ⟨first, others⟩ := List.pairwise_cons.mp different.apart
      have rest : Different (xs.map key) := ⟨fun v member => different.keys v (List.mem_cons_of_mem _ member), others⟩
      rw [List.flatMap_cons, List.foldl_append]
      cases counted : copies x with
      | zero =>
        rw [List.filter_cons_of_neg (by simp [counted])]
        exact ih rest roster later
      | succ count =>
        have joined := Roster.keys_addCopies here (different.keys _ List.mem_cons_self) count
        rw [List.filter_cons_of_pos (by simp [counted]), List.map_cons]
        generalize (List.replicate (count + 1) (key x)).foldl Roster.add roster = next at joined
        rw [ih rest next ?_, joined, List.append_assoc, List.singleton_append]
        refine fun y member => Bool.eq_false_iff.mpr fun held => ?_
        obtain ⟨other, listed, same⟩ := Roster.has_iff.mp held
        rw [joined] at listed
        rcases List.mem_append.mp listed with old | new
        · exact Bool.false_ne_true ((later y member).symm.trans (Roster.has_iff.mpr ⟨other, old, same⟩))
        · rw [List.mem_singleton.mp new, first _ (List.mem_map_of_mem member)] at same
          cases same
  exact grown .empty fun x _ => by rw [Filing.has_eq]; rfl

end Value

theorem Roster.has_ofList_text {values : List Value} {s : String} :
    (Roster.ofList values).has (.text s) = true ↔ s ∈ values.filterMap Value.text? := by
  simp only [Roster.has_iff, List.mem_filterMap]
  constructor
  · rintro ⟨other, listed, same⟩
    exact ⟨other, Value.mem_distinct listed, Value.same_text_iff.mp same⟩
  · rintro ⟨v, member, text⟩
    obtain ⟨other, listed, same⟩ := Value.exists_distinct member (Value.isKey_of_isText (by simp [Value.isText, text]))
    exact ⟨other, listed, Value.same_text_iff.mpr ((Value.text?_eq_of_same same).trans text)⟩

end Matchmaking
