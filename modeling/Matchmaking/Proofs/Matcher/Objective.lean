import Matchmaking.Matcher.Compose
import Matchmaking.Proofs.Constraint.Keeping

/-! The objective of a matcher. The sums of whole numbers are whole, so it is found if all weights
are whole; and it has a weight for just the active identifiers, in the order in which they first
got one, which is that of the variables. -/
namespace Matchmaking

def Weight.IsWhole (weight : Value) : Prop :=
  ∀ row, Weight.cycle weight = .ok row → ∀ v ∈ row, ∃ n, v.number? = some (.whole n)

theorem Value.add_whole {a b : Value} {m n : Int} (first : a.number? = some (.whole m))
    (second : b.number? = some (.whole n)) : a.add b = .ok (.int (m + n)) := by
  rw [add, number, number, first, second]
  rfl

namespace Weight

theorem isWhole_int (w : Int) : IsWhole (.int w) := by
  rintro row ⟨⟩ v member
  exact ⟨w, by rw [List.mem_singleton.mp member]; rfl⟩

theorem cycle_ok {weight : Value} (checked : check weight = .ok weight) : ∃ row, cycle weight = .ok row ∧ row ≠ [] := by
  unfold check at checked
  unfold cycle
  split at checked
  · rename_i isRow
    obtain ⟨row, read, checked⟩ := bind_eq_ok.mp checked
    refine ⟨row, by rw [if_pos isRow, read], ?_⟩
    rintro rfl
    cases checked
  · rename_i single
    exact ⟨[weight], by rw [if_neg single], List.cons_ne_nil _ _⟩

theorem length_take {weight : Value} (checked : check weight = .ok weight) {count : Nat} {weights : List Value}
    (taken : take count weight = .ok weights) : weights.length = count := by
  obtain ⟨row, read, some⟩ := cycle_ok checked
  simp only [take, read, ok_bind, pure_eq_ok] at taken
  cases taken
  have turns : ∀ place, (turn? row.toArray place).isSome := by
    intro place
    simpa [turn?] using Nat.mod_lt place (List.length_pos_iff.mpr some)
  rw [List.length_filterMap_eq_countP, List.countP_eq_length.mpr fun place _ => turns place, List.length_range]

theorem take_ok {weight : Value} (checked : check weight = .ok weight) (count : Nat) : ∃ row weights,
    cycle weight = .ok row ∧ take count weight = .ok weights ∧ ∀ v ∈ weights, v ∈ row := by
  obtain ⟨row, read, -⟩ := cycle_ok checked
  refine ⟨row, _, read, by simp only [take, read, ok_bind]; rfl, fun v member => ?_⟩
  obtain ⟨place, -, turn⟩ := List.mem_filterMap.mp member
  simpa using Array.mem_of_getElem? turn

theorem number_of_check {weight v : Value} {row : List Value} (checked : check weight = .ok weight)
    (read : cycle weight = .ok row) (member : v ∈ row) : ∃ n, v.number? = some n := by
  unfold cycle at read
  unfold check at checked
  split at read <;> rename_i kind
  · rw [if_pos kind, read, ok_bind] at checked
    split at checked <;> rename_i numbers
    · exact Option.isSome_iff_exists.mp (List.all_eq_true.mp (Bool.and_eq_true_iff.mp numbers).2 v member)
    · cases checked
  · rw [if_neg kind] at checked
    cases read
    rw [List.mem_singleton.mp member]
    split at checked
    · exact ⟨_, rfl⟩
    · exact ⟨_, rfl⟩
    · exact ⟨_, rfl⟩
    · cases checked

end Weight

namespace Matcher

namespace Sums

variable {sums next : Sums} {id : String} {weight : Value}

theorem add_eq_ok : sums.add id weight = .ok next ↔ ∃ total, (sums.sum id).add weight = .ok total ∧
    next = ⟨if sums.totals.contains id then sums.order else sums.order.push id, sums.totals.insert id total⟩ := by
  rw [add, bind_eq_ok]
  simp only [pure_eq_ok, Except.ok.injEq, eq_comm]

def Are (kind : Value → Prop) (sums : Sums) : Prop := ∀ id, kind (sums.sum id)

variable {kind : Value → Prop} {bad : Failure → Prop}

theorem are_empty (zero : kind (.int 0)) : Are kind {} := fun id => by simpa [sum] using zero

theorem add_ends (are : sums.Are kind) (adds : ∀ a, kind a → Ends (a.add weight) kind bad) (id : String) :
    Ends (sums.add id weight) (Are kind) bad := by
  refine (adds _ (are id)).bind fun total fine => .inl ⟨_, rfl, fun other => ?_⟩
  rw [Sums.sum, Std.HashMap.getD_insert]
  split
  · exact fine
  · exact are other

theorem addAll_ends {composer : Composer} (checked : Weight.check composer.weight = .ok composer.weight)
    (adds : ∀ row, Weight.cycle composer.weight = .ok row → ∀ w ∈ row, ∀ a, kind a → Ends (a.add w) kind bad)
    (are : sums.Are kind) : Ends (sums.addAll composer) (Are kind) bad := by
  obtain ⟨row, weights, read, taken, inside⟩ := Weight.take_ok checked composer.view.ids.length
  simp only [addAll, taken, ok_bind]
  refine .foldlM (fun sums pair member are => add_ends are (adds row read pair.2 (inside _ ?_)) pair.1) are
  exact (List.of_mem_zip (show (pair.1, pair.2) ∈ _ from member)).2

theorem addAll_single {composer : Composer} (single : composer.view.ids = [id])
    (taken : Weight.take 1 composer.weight = .ok [weight]) : sums.addAll composer = sums.add id weight := by
  simp only [addAll, single, List.length_singleton, taken, ok_bind]
  exact bind_pure _

/-- Sums of just the identifiers that have been given weights, each at its first place. -/
structure Follows (sums : Sums) (given : List String) : Prop where
  order : sums.order.toList = Text.distinct given
  known : ∀ id, sums.totals.contains id = true ↔ id ∈ given

theorem follows_empty : Follows {} [] := ⟨rfl, by simp⟩

theorem Follows.add {given : List String} (follows : sums.Follows given) (added : sums.add id weight = .ok next) :
    next.Follows (given ++ [id]) := by
  obtain ⟨total, -, rfl⟩ := add_eq_ok.mp added
  refine ⟨?_, fun other => ?_⟩
  · rw [Text.distinct_concat, ← follows.order]
    simp only [follows.known]
    split <;> simp
  · rw [Std.HashMap.contains_insert, Bool.or_eq_true, follows.known, beq_iff_eq, List.mem_append,
      List.mem_singleton, or_comm, eq_comm (a := other)]

theorem Follows.foldlM {α : Type} {step : Sums → α → Except Failure Sums} (ids : α → List String) {xs : List α}
    (each : ∀ x ∈ xs, ∀ (sums next : Sums) (given : List String), sums.Follows given → step sums x = .ok next →
      next.Follows (given ++ ids x)) {given : List String} (follows : sums.Follows given)
    (added : xs.foldlM step sums = .ok next) : next.Follows (given ++ xs.flatMap ids) := by
  induction xs generalizing sums given with
  | nil =>
    cases added
    simpa using follows
  | cons x xs ih =>
    rw [List.foldlM_cons] at added
    obtain ⟨mid, first, rest⟩ := bind_eq_ok.mp added
    obtain ⟨own, others⟩ := List.forall_mem_cons.mp each
    rw [List.flatMap_cons, ← List.append_assoc]
    exact ih others (own sums mid given follows first) rest

theorem Follows.addAll {composer : Composer} (checked : Weight.check composer.weight = .ok composer.weight)
    {given : List String} (follows : sums.Follows given) (added : sums.addAll composer = .ok next) :
    next.Follows (given ++ composer.view.ids) := by
  obtain ⟨weights, taken, added⟩ := bind_eq_ok.mp added
  have equal := Weight.length_take checked taken
  have ids : (composer.view.ids.zip weights).flatMap (fun pair => [pair.1]) = composer.view.ids := by
    rw [← List.map_eq_flatMap, List.map_fst_zip (Nat.le_of_eq equal.symm)]
  rw [← ids]
  exact follows.foldlM (fun pair : String × Value => [pair.1]) (fun _ _ _ _ _ follows added => follows.add added) added

end Sums

theorem Sums.add_first {id : String} {weight total : Value} (more : (Value.int 0).add weight = .ok total) :
    Sums.add {} id weight = .ok ⟨#[id], Std.HashMap.insert ∅ id total⟩ :=
  add_eq_ok.mpr ⟨total, by simpa [sum] using more, by simp⟩

theorem objective_of_one {m : Matcher} {composer : Composer} {id : String} {weight total : Value}
    (composers : m.composers = [composer]) (single : composer.view.ids = [id])
    (taken : Weight.take 1 composer.weight = .ok [weight]) (more : (Value.int 0).add weight = .ok total) :
    m.objective = .ok [(.text id, total)] := by
  have folded : [composer].foldlM Sums.addAll {} = .ok ⟨#[id], Std.HashMap.insert ∅ id total⟩ := by
    rw [List.foldlM_cons, Sums.addAll_single single taken, Sums.add_first more]
    rfl
  rw [objective, composers, List.isEmpty_cons, if_neg Bool.false_ne_true, folded, ok_bind]
  simp [Sums.toKeyed, Sums.sum]

theorem objective_of_two {m : Matcher} {first second : Composer} {id : String} {weight weight' total : Value}
    (composers : m.composers = [first, second]) (single : first.view.ids = [id]) (single' : second.view.ids = [id])
    (taken : Weight.take 1 first.weight = .ok [weight]) (taken' : Weight.take 1 second.weight = .ok [weight'])
    (more : (Value.int 0).add weight = .ok total) :
    m.objective = do return [(.text id, ← total.add weight')] := by
  have folded : [first, second].foldlM Sums.addAll {} =
      Sums.add ⟨#[id], Std.HashMap.insert ∅ id total⟩ id weight' := by
    rw [List.foldlM_cons, Sums.addAll_single single taken, Sums.add_first more, ok_bind, List.foldlM_cons,
      Sums.addAll_single single' taken']
    exact bind_pure _
  have had : Sums.sum ⟨#[id], Std.HashMap.insert ∅ id total⟩ id = total := by simp [Sums.sum]
  rw [objective, composers, List.isEmpty_cons, if_neg Bool.false_ne_true, folded, Sums.add, had]
  cases total.add weight' <;> simp [Sums.toKeyed, Sums.sum]

/-- The weights of an objective are of a kind if those of the composers keep to the kind as they are added. -/
theorem objective_ends {m : Matcher} {kind : Value → Prop} {bad : Failure → Prop} (zero : kind (.int 0))
    (one : ∀ a, kind a → Ends (a.add (.int 1)) kind bad) (checked : ∀ composer ∈ m.composers,
      Weight.check composer.weight = .ok composer.weight) (adds : ∀ composer ∈ m.composers, ∀ row,
      Weight.cycle composer.weight = .ok row → ∀ w ∈ row, ∀ a, kind a → Ends (a.add w) kind bad) :
    Ends m.objective (fun objective => ∀ term ∈ objective, ∃ id v, term = (.text id, v) ∧ kind v) bad := by
  have each : ∀ sums : Sums, ∀ composer ∈ (if m.composers.isEmpty then [⟨.int 1, m.space⟩] else m.composers),
      sums.Are kind → Ends (sums.addAll composer) (Sums.Are kind) bad := by
    intro sums composer member are
    split at member
    · rw [List.mem_singleton.mp member]
      refine Sums.addAll_ends rfl (fun row read w listed => ?_) are
      cases read
      rw [List.mem_singleton.mp listed]
      exact one
    · exact Sums.addAll_ends (checked composer member) (adds composer member) are
  refine (Ends.foldlM each (Sums.are_empty zero)).bind fun sums are => .inl ⟨_, rfl, fun term member => ?_⟩
  obtain ⟨id, -, rfl⟩ := List.mem_map.mp member
  exact ⟨id, _, rfl, are id⟩

theorem objective_ok {m : Matcher} (checked : ∀ composer ∈ m.composers,
      Weight.check composer.weight = .ok composer.weight) (weighs : ∀ composer ∈ m.composers,
      Weight.IsWhole composer.weight) :
    ∃ objective, m.objective = .ok objective ∧ ∀ term ∈ objective, ∃ id z, term = (.text id, .int z) := by
  have adds (w : Value) (n : Int) (number : w.number? = some (.whole n)) (a : Value) (whole : ∃ z, a = .int z) :
      Ends (a.add w) (fun v => ∃ z, v = .int z) fun _ => False := by
    obtain ⟨z, rfl⟩ := whole
    exact .inl ⟨_, Value.add_whole rfl number, _, rfl⟩
  obtain ⟨objective, found, terms⟩ := (objective_ends ⟨0, rfl⟩ (adds _ 1 rfl) checked
    fun composer member row read w listed => by
      obtain ⟨n, number⟩ := weighs composer member row read w listed
      exact adds w n number).ok
  refine ⟨objective, found, fun term member => ?_⟩
  obtain ⟨id, v, rfl, z, rfl⟩ := terms term member
  exact ⟨id, z, rfl⟩

/-- The weights of an objective are numbers, and there is one unless a whole number is too large to be added
to a double. -/
theorem objective_numbers {m : Matcher} (checked : ∀ composer ∈ m.composers,
      Weight.check composer.weight = .ok composer.weight) :
    Ends m.objective (fun objective => ∀ term ∈ objective, ∃ id n, term = (.text id, .ofNumber n)) (· = .tooLarge) := by
  have adds (w : Value) (number : ∃ n, w.number? = some n) (a : Value) (numeric : ∃ n, a = .ofNumber n) :
      Ends (a.add w) (fun v => ∃ n, v = .ofNumber n) (· = .tooLarge) := by
    obtain ⟨x, rfl⟩ := numeric
    obtain ⟨y, number⟩ := number
    rw [Value.add, Value.number_ofNumber, ok_bind, Value.number, number]
    cases sum : x.add? y with
    | some total => exact .inl ⟨_, by simp [Value.orWrongKind, sum], total, rfl⟩
    | none => exact .inr ⟨_, by simp [Value.orWrongKind, sum], rfl⟩
  refine (objective_ends ⟨.whole 0, rfl⟩ (adds _ ⟨_, rfl⟩) checked fun composer member row read w listed =>
    adds w (Weight.number_of_check (checked composer member) read listed)).imp ?_ id
  rintro ⟨objective, found, terms⟩
  refine ⟨objective, found, fun term member => ?_⟩
  obtain ⟨id, v, rfl, n, rfl⟩ := terms term member
  exact ⟨id, n, rfl⟩

/-- An objective is read off sums of just the active identifiers, in their order. -/
theorem objective_sums {m : Matcher} (nodup : m.space.ids.Nodup) (checked : ∀ composer ∈ m.composers,
      Weight.check composer.weight = .ok composer.weight) {objective : Keyed Value}
    (found : m.objective = .ok objective) : ∃ sums : Sums,
      (if m.composers.isEmpty then [⟨.int 1, m.space⟩] else m.composers).foldlM Sums.addAll {} = .ok sums ∧
        sums.order.toList = m.active ∧ objective = sums.toKeyed := by
  obtain ⟨sums, added, found⟩ := bind_eq_ok.mp found
  cases found
  refine ⟨sums, added, ?_, rfl⟩
  unfold active
  split at added <;> rename_i none
  · have follows := Sums.follows_empty.foldlM (fun composer : Composer => composer.view.ids)
      (fun composer member _ _ _ follows added => follows.addAll
        (by rw [List.mem_singleton.mp member]; rfl) added) added
    rw [if_pos none, follows.order]
    simpa using Text.distinct_of_nodup nodup
  · have follows := Sums.follows_empty.foldlM (fun composer : Composer => composer.view.ids)
      (fun composer member _ _ _ follows added => follows.addAll (checked composer member) added) added
    rw [if_neg none, follows.order, List.nil_append]

/-- Just the active identifiers have a weight in the objective, in their order. -/
theorem keys_objective {m : Matcher} (nodup : m.space.ids.Nodup) (checked : ∀ composer ∈ m.composers,
      Weight.check composer.weight = .ok composer.weight) {objective : Keyed Value}
    (found : m.objective = .ok objective) : objective.keys = m.active.map .text := by
  obtain ⟨sums, -, order, rfl⟩ := objective_sums nodup checked found
  rw [Sums.toKeyed, order, Keyed.keys, List.map_map]
  rfl

end Matcher

end Matchmaking
