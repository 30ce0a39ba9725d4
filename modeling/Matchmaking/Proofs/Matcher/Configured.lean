import Matchmaking.Proofs.Matcher.Effect

/-! What a matcher holds after a run of calls: composers of the rows that some call includes,
rows for what every call demands, and under each collection the count of the last call for it. -/
namespace Matchmaking

namespace Matcher

/-- The count rule that a matcher has for a collection is that of the last call for it. -/
def CountsLast (calls : List Call) (m : Matcher) (name : Value) : Prop :=
  match (calls.filterMap (Call.count? name)).getLast? with
  | none => m.counts.get? name = none
  | some (count, padding) => ∃ rule, Count.read count = .ok rule ∧ m.counts.get? name = some (rule, padding)

/-- A matcher over the whole of a table, configured by calls. -/
structure Configured (table : Table) (calls : List Call) (m : Matcher) : Prop where
  space : m.space = .whole table
  composers : Composes table m.composers fun row => calls.any (·.includes table row)
  weights : ∀ composer ∈ m.composers, Weight.check composer.weight = .ok composer.weight ∧
    ∃ call ∈ calls, call.weight? = some composer.weight
  rows : AmountsTo table m.constraints fun active selected => ∀ call ∈ calls, table.Obeyed active selected call
  mapping : m.counts.IsMapping
  known : ∀ entry ∈ m.counts, ∃ collection ∈ table.collections, collection.1.same entry.1 = true
  counts : ∀ collection ∈ table.collections, CountsLast calls m collection.1

variable {table : Table} {calls : List Call} {m next : Matcher}

theorem countsLast_other {call : Call} {name : Value} (last : CountsLast calls m name)
    (kept : next.counts.get? name = m.counts.get? name) (silent : call.count? name = none) :
    CountsLast (calls ++ [call]) next name := by
  have same : (calls ++ [call]).filterMap (Call.count? name) = calls.filterMap (Call.count? name) := by
    simp [List.filterMap_append, silent]
  rw [CountsLast, same, kept]
  exact last

theorem countsLast_own {call : Call} {name count : Value} {padding : Int} {rule : Count}
    (read : Count.read count = .ok rule) (own : call.count? name = some (count, padding))
    (found : next.counts.get? name = some (rule, padding)) :
    CountsLast (calls ++ [call]) next name := by
  have last : ((calls ++ [call]).filterMap (Call.count? name)).getLast? = some (count, padding) := by
    simp [List.filterMap_append, own]
  rw [CountsLast, last]
  exact ⟨rule, read, found⟩

namespace Configured

theorem counts_call {call : Call} (before : Configured table calls m) (effect : call.Effect table m next) :
    next.counts.IsMapping ∧
    (∀ entry ∈ next.counts, ∃ collection ∈ table.collections, collection.1.same entry.1 = true) ∧
    ∀ collection ∈ table.collections, CountsLast (calls ++ [call]) next collection.1 := by
  obtain ⟨kept, silent⟩ | ⟨name, count, padding, rule, rfl, read, key, known, changed⟩ := effect.counts
  · rw [kept]
    exact ⟨before.mapping, before.known, fun collection member =>
      countsLast_other (before.counts collection member) (by rw [kept]) (silent _)⟩
  have keys : ∀ entry ∈ m.counts, entry.1.isKey = true := fun entry member =>
    before.mapping.keys _ (List.mem_map.mpr ⟨entry, member, rfl⟩)
  refine ⟨changed ▸ before.mapping.alter key _, fun entry member => ?_, fun collection member => ?_⟩
  · rw [changed, Keyed.put] at member
    rcases Keyed.mem_keys_alter (List.mem_map.mpr ⟨entry, member, rfl⟩) with old | new
    · obtain ⟨other, inside, equal⟩ := List.mem_map.mp old
      rw [← equal]
      exact before.known other inside
    · rw [new]
      exact known
  · have found (other : Value) : next.counts.get? other =
        if name.same other then some (rule, padding) else m.counts.get? other := by
      rw [changed, Keyed.put, Keyed.get?_alter keys key]
    by_cases own : name.same collection.1 = true
    · exact countsLast_own read (if_pos own) (by rw [found, if_pos own])
    · exact countsLast_other (before.counts collection member) (by rw [found, if_neg own])
        (by simp [Call.count?, own])

theorem call {call : Call} (before : Configured table calls m) (effect : call.Effect table m next) :
    Configured table (calls ++ [call]) next := by
  obtain ⟨mapping, known, counts⟩ := before.counts_call effect
  obtain ⟨composers, grown, composes, weighs⟩ := effect.composers
  obtain ⟨rows, grown', amounts⟩ := effect.rows
  refine ⟨effect.space.trans before.space, ?_, ?_, ?_, mapping, known, counts⟩
  · rw [grown]
    exact (before.composers.append composes).congr fun row _ => by simp
  · rw [grown]
    refine List.forall_mem_append.mpr ⟨fun composer listed => ?_, fun composer listed => ?_⟩
    · obtain ⟨checked, earlier, member, weighed⟩ := before.weights composer listed
      exact ⟨checked, earlier, List.mem_append_left _ member, weighed⟩
    · obtain ⟨weighed, checked⟩ := weighs composer listed
      exact ⟨checked, _, by simp, weighed⟩
  · rw [grown']
    exact (before.rows.append amounts).congr fun active selected _ => by simp [or_imp, forall_and]

end Configured

theorem configured_of_build {collections : Keyed Value} {backend timeLimit : Value} {start : Matcher}
    (mapping : collections.IsMapping) (built : build collections backend timeLimit = .ok start) :
    ∃ table, table.Sound ∧ List.Forall₂ (fun given entry => entry.1 = given.1 ∧ given.2.items = .ok entry.2.keys)
      (collections.inTurn []) table.collections ∧ Configured table [] start := by
  obtain ⟨table, sound, given, rfl⟩ := build_eq_ok mapping built
  exact ⟨table, sound, given, rfl, Composes.nil.congr (by simp), by simp, AmountsTo.nil.congr (by simp), .nil,
    by simp, fun _ _ => rfl⟩

theorem Run.configured {start : Matcher} (sound : table.Sound) (fresh : Configured table [] start)
    (run : Run start calls m) (rules : ∀ call ∈ calls, call.IsRule) : Configured table calls m := by
  induction run with
  | start => exact fresh
  | call before gives ih =>
    obtain ⟨earlier, last⟩ := List.forall_mem_append.mp rules
    have configured := ih earlier
    exact configured.call (Call.run_effect sound (last _ List.mem_cons_self) configured.space gives)

end Matcher

end Matchmaking
