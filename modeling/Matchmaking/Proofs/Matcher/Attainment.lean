import Matchmaking.Proofs.Matcher.Candidates

/-! Which counts can be met. The rows that a count comes to in a program, taken alone, can be satisfied for every
element unless the count only asks for negative numbers: neither the padding nor the number of candidates, to which
bounds are lowered on the way, can put them out of reach. -/
namespace Matchmaking

open Stateful

namespace Matcher

variable {table : Table} {m : Matcher} {taken : Roster} {p : Problem} {name : Value} {found : Count} {padding : Int}
  {scope : Option (Std.HashSet String)} {block rows : List Constraint} {own : List String}

def Leaves (scope : Option (Std.HashSet String)) (block rows : List Constraint) : Prop :=
  ∃ kept, List.Forall₂ (fun c kept => c.keeping (narrowRow scope c.unknowns) = .ok kept) block kept ∧
    rows = kept.filterMap id

/-- The rows that a count rule comes to in a program for the candidates for an element. -/
def Comes (scope : Option (Std.HashSet String)) (found : Count) (padding : Int) (own : List String)
    (rows : List Constraint) : Prop :=
  ∃ block, IsBlock found padding own block ∧ Leaves scope block rows

theorem Leaves.forall_iff {good : Constraint → Prop} (leaves : Leaves scope block rows) : (∀ row ∈ rows, good row) ↔
    ∀ c ∈ block, ∀ kept, c.keeping (narrowRow scope c.unknowns) = .ok (some kept) → good kept := by
  obtain ⟨all, related, rfl⟩ := leaves
  simp only [List.mem_filterMap, id_eq, exists_eq_right]
  constructor
  · intro each c member kept keeps
    obtain ⟨found, listed, keeps'⟩ := exists_of_mem_right related.flip member
    cases keeps.symm.trans keeps'
    exact each kept listed
  · intro each row listed
    obtain ⟨c, member, keeps⟩ := exists_of_mem_right related listed
    exact each c member row keeps

theorem Leaves.append {others : List Constraint} (leaves : Leaves scope (block ++ others) rows) :
    ∃ first second, Leaves scope block first ∧ Leaves scope others second ∧ rows = first ++ second := by
  obtain ⟨all, related, rfl⟩ := leaves
  obtain ⟨first, second, left, right, rfl⟩ := exists_append related
  exact ⟨_, _, ⟨first, left, rfl⟩, ⟨second, right, rfl⟩, List.filterMap_append⟩

theorem Leaves.flatten {blocks : List (List Constraint)} (leaves : Leaves scope blocks.flatten rows) :
    ∃ owns, List.Forall₂ (Leaves scope) blocks owns ∧ rows = owns.flatten := by
  obtain ⟨all, related, rfl⟩ := leaves
  obtain ⟨kept, each, rfl⟩ := exists_flatten related
  refine ⟨kept.map (·.filterMap id), ?_, List.filterMap_flatten⟩
  exact List.forall₂_map_right_iff.mpr (each.imp fun _ own related => ⟨own, related, rfl⟩)

/-- The rows that the counts of a collection come to in a program stand together. -/
theorem compose_blocks (composed : m.compose taken = .ok p) (member : (name, found, padding) ∈ m.counts) :
    ∃ groups owns front back, m.Sorts m.scope name groups ∧ p.constraints = front ++ (owns.flatten ++ back) ∧
      List.Forall₂ (Comes m.scope found padding) groups owns := by
  obtain ⟨counts, made, finalizing⟩ := bind_eq_ok.mp composed
  obtain ⟨kept, finalized, weighing⟩ := bind_eq_ok.mp finalizing
  obtain ⟨objective, -, equal⟩ := bind_eq_ok.mp weighing
  cases equal
  obtain ⟨groups, blocks, before, after, sorts, rfl, counted⟩ := countConstraintsIn_blocks made member
  have leaves : Leaves m.scope (m.constraints ++ (before ++ (blocks.flatten ++ after))) (kept.filterMap id) :=
    ⟨kept, mapM_eq_ok.mp finalized, rfl⟩
  obtain ⟨first, _, -, later, rest⟩ := leaves.append
  obtain ⟨front, _, -, middle, rfl⟩ := later.append
  obtain ⟨_, back, inner, -, rfl⟩ := middle.append
  obtain ⟨owns, each, rfl⟩ := inner.flatten
  exact ⟨groups, owns, first ++ front, back, sorts, by rw [rest, List.append_assoc], forall₂_comp counted each⟩

theorem narrow_of_active (within : own ⊆ m.active) : narrow m.scope own = own := by
  unfold scope
  split
  · rfl
  · exact List.filter_eq_self.mpr fun id member => by simpa using within member

/-- Every choice of active identifiers stands for a selection of active tuples. -/
theorem exists_selected (table : Table) {chosen : String → Bool} (within : ∀ id, chosen id = true → id ∈ m.active) :
    ∃ selected, table.Within (m.activates table) selected ∧ table.Chooses selected chosen := by
  classical
  refine ⟨fun row => decide (row ∈ table.rows ∧ chosen (table.identify row) = true), fun row picked => ?_,
    fun row member => by simp [member]⟩
  obtain ⟨member, picked⟩ := of_decide_eq_true picked
  exact ⟨member, List.contains_iff_mem.mpr (within _ picked)⟩

theorem exists_chosen (once : own.Nodup) {number : Nat} (less : number ≤ own.length) :
    ∃ chosen : String → Bool, (∀ id, chosen id = true → id ∈ own) ∧ own.countP chosen = number := by
  refine ⟨fun id => (own.take number).contains id, fun id picked => ?_, ?_⟩
  · exact List.mem_of_mem_take (List.contains_iff_mem.mp picked)
  · have apart := List.disjoint_take_drop once (Nat.le_refl number)
    conv => lhs; arg 2; rw [← List.take_append_drop number own]
    rw [List.countP_append, List.countP_eq_length.mpr, List.countP_eq_zero.mpr, List.length_take_of_le less]
    · rfl
    · exact fun id dropped picked => apart (List.contains_iff_mem.mp picked) dropped
    · exact fun id member => List.contains_iff_mem.mpr member

theorem Comes.nil (comes : Comes scope found padding [] rows) : rows = [] := by
  obtain ⟨block, made, leaves⟩ := comes
  refine List.eq_nil_iff_forall_not_mem.mpr (leaves.forall_iff.mpr fun c member kept keeps => ?_)
  have dropped : narrowRow scope (([] : List String).map .text) = [] := by
    rw [narrowRow_text]
    cases scope <;> rfl
  rw [made.over.2 c member, dropped, Constraint.keeping_nil] at keeps
  cases keeps

/-- The rows that a count comes to for the active tuples of a kind are satisfied by just those choices that agree with
it, if there are such tuples. -/
theorem Comes.satisfied_iff {kind selected : List Value → Bool} {count : Value} {chosen : String → Bool}
    (comes : Comes m.scope found padding own rows)
    (counts : (Count.fixed? count).isSome ∨ (Count.span? count).isSome) (read : Count.read count = .ok found)
    (lists : table.Lists own fun row => m.activates table row && kind row) (some : own ≠ []) (active : own ⊆ m.active)
    (within : table.Within (m.activates table) selected) (chooses : table.Chooses selected chosen) :
    (∀ row ∈ rows, row.isSatisfied chosen = true) ↔ Count.Agrees count padding own.length (own.countP chosen) := by
  obtain ⟨block, ⟨plain, made, renames⟩, leaves⟩ := comes
  have left := narrow_of_active active
  rw [← left] at lists made
  obtain ⟨plain', made', enforces⟩ : ∃ rows, countRows found padding (narrow m.scope own) = .ok rows ∧
    Enforces table m (m.activates table) rows _ := countRows_enforces counts read lists
  cases made.symm.trans made'
  rw [left] at lists
  rw [leaves.forall_iff, (enforces.renamed renames).satisfied selected chosen within chooses, ← lists.length,
    ← Enforces.countP_left lists within chooses]
  exact forall_prop_of_true (List.length_pos_iff.mpr some)

/-- The rows that a count comes to for an element can be satisfied if there are none, or if one of the numbers that the
count names is not negative, and else they cannot. -/
theorem Comes.attainable_iff (sound : table.Sound) {kind : List Value → Bool} {count : Value} {asked : List Int}
    (names : Count.numbers? count = some asked) (read : Count.read count = .ok found)
    (lists : table.Lists own fun row => m.activates table row && kind row) (active : own ⊆ m.active)
    (comes : Comes m.scope found padding own rows) : (∃ chosen : String → Bool,
      (∀ id, chosen id = true → id ∈ m.active) ∧ ∀ row ∈ rows, row.isSatisfied chosen = true) ↔
        own = [] ∨ ∃ n ∈ asked, 0 ≤ n := by
  have counts : (Count.fixed? count).isSome ∨ (Count.span? count).isSome := by
    rcases Count.asks_of_read names read with ⟨_, fixed, -⟩ | ⟨_, _, -, span, -⟩
    · exact .inl (by rw [fixed]; rfl)
    · exact .inr (by rw [span]; rfl)
  by_cases none : own = []
  · subst none
    exact iff_of_true ⟨fun _ => false, by simp, by simp [comes.nil]⟩ (.inl rfl)
  rw [or_iff_right none, ← Count.agrees_iff_named names read padding own.length]
  constructor
  · rintro ⟨chosen, within, satisfied⟩
    obtain ⟨selected, within, chooses⟩ := exists_selected table within
    exact ⟨_, List.countP_le_length, (comes.satisfied_iff counts read lists none active within chooses).mp satisfied⟩
  · rintro ⟨number, less, agrees⟩
    obtain ⟨chosen, within, equal⟩ := exists_chosen (lists.nodup sound) less
    have within' : ∀ id, chosen id = true → id ∈ m.active := fun id picked => active (within id picked)
    obtain ⟨selected, holds, chooses⟩ := exists_selected table within'
    rw [← equal] at agrees
    exact ⟨chosen, within', (comes.satisfied_iff counts read lists none active holds chooses).mpr agrees⟩

/-- A count that is a whole number, a range or a pair always comes to some rows. -/
theorem exists_comes {count : Value} {asked : List Int} (names : Count.numbers? count = some asked)
    (read : Count.read count = .ok found) (padding : Int) (own : List String) :
    ∃ rows, Comes scope found padding own rows := by
  have whole : found.Has fun v => ∃ z, v = .int z := by
    rcases Count.asks_of_read names read with ⟨n, fixed, -⟩ | ⟨low, high, -, span, -⟩
    · rw [Count.read_exactly fixed read]
      exact ⟨n, rfl⟩
    · rw [Count.read_between span read]
      exact ⟨⟨low, rfl⟩, high, rfl⟩
  obtain ⟨plain, made, targets⟩ := countRows_ok Value.isKind_whole whole padding own
  have keeps : ∀ c ∈ plain, ∃ kept, c.keeping (narrowRow scope c.unknowns) = .ok kept := fun c member => by
    obtain ⟨z, target⟩ := targets c member
    exact Constraint.keeping_ok (fun n => ⟨_, by rw [target, Value.atMost_int]⟩) _
  obtain ⟨kept, related⟩ := exists_forall₂ keeps
  exact ⟨_, plain, ⟨plain, made, List.forall₂_same.mpr fun c _ => ⟨c.name, rfl⟩⟩, kept, related, rfl⟩

end Matcher

namespace Bench

open Matcher

/-- Whatever has been configured and asked before, a count that is a whole number, a range or a pair comes to rows of
its own for every element of its collection. Over the candidates for the element there are none if there are no
candidates. Taken alone they can be satisfied by a choice of active identifiers unless all numbers that the count names
are negative, whatever the padding is. In a program, if there is one, they stand together, and with whole numbers
throughout there is one. -/
theorem count_attainable {collections : Keyed Value} {backend timeLimit : Value} {start : Matcher}
    {actions : List Action} {bench : Bench} (mapping : collections.IsMapping)
    (built : Matcher.build collections backend timeLimit = .ok start) (reached : Reached start actions bench)
    {name count : Value} {found : Count} {padding : Int} {asked : List Int} (read : Count.read count = .ok found)
    (names : Count.numbers? count = some asked) (member : (name, found, padding) ∈ bench.desk.matcher.counts) :
    ∃ ids scope groups, (outcome active bench).1 = .ok ids ∧ (outcome Bench.scope bench).1 = .ok scope ∧
      bench.desk.matcher.Sorts scope name groups ∧ groups.flatten.Perm ids ∧
      (∀ own ∈ groups, (∃ rows, Comes scope found padding own rows) ∧ ∀ rows, Comes scope found padding own rows →
        (own = [] → rows = []) ∧
        ((∃ chosen : String → Bool, (∀ id, chosen id = true → id ∈ ids) ∧
          ∀ row ∈ rows, row.isSatisfied chosen = true) ↔ own = [] ∨ ∃ n ∈ asked, 0 ≤ n)) ∧
      (∀ p, (outcome problem bench).1 = .ok p → ∃ owns front back, p.constraints = front ++ (owns.flatten ++ back) ∧
        List.Forall₂ (Comes scope found padding) groups owns) ∧
      ((∀ call, .configure call ∈ actions → call.IsWhole) → ∃ p, (outcome problem bench).1 = .ok p) := by
  obtain ⟨table, sound, coherent, stands⟩ := reached.stands mapping built
  obtain ⟨key, collection, inside, same⟩ := stands.known name (List.mem_map_of_mem member)
  obtain ⟨groups, sorts, lists⟩ := Matcher.exists_sorts sound stands.space inside key same
  obtain ⟨-, all⟩ := stands.sorts_apart sound inside lists
  refine ⟨_, _, groups, active_tells.answers coherent, scope_tells.answers coherent, sorts, all, fun own listed => ?_,
    fun p composed => ?_, fun whole => ?_⟩
  · obtain ⟨e, -, lists⟩ := exists_of_mem_right lists listed
    have active : own ⊆ bench.desk.matcher.active := fun id member =>
      all.mem_iff.mp (List.mem_flatten.mpr ⟨own, listed, member⟩)
    refine ⟨exists_comes names read padding own, fun rows comes => ⟨?_, ?_⟩⟩
    · rintro rfl
      exact comes.nil
    · exact comes.attainable_iff sound names read lists active
  · rw [problem_tells.answers coherent] at composed
    obtain ⟨groups', owns, front, back, sorts', equal, come⟩ := compose_blocks composed member
    cases sorts.unique sorts'
    exact ⟨owns, front, back, equal, come⟩
  · obtain ⟨table, sound, -, -, fresh⟩ := Matcher.holds_of_build mapping built
    have held := (reached.keeps (fresh Constraint.IsWhole) fun call member _ => Call.run_whole (whole call member)).2
    rw [problem_tells.answers coherent]
    exact held.compose_succeeds sound (fun _ whole => whole) bench.desk.namer.taken

/-- A pair of negative numbers is accepted, and the rows that it comes to for the one element cannot be satisfied. -/
theorem unattainable_of_negative : ∃ start bench scope groups,
    Matcher.build [(.text "a", .list [.text "x"])] .null .null = .ok start ∧
    Reached start [.configure (.setCount (.text "a") (.tuple [.int (-2), .int (-1)]) (.int 0))] bench ∧
    (outcome active bench).1 = .ok ["v0"] ∧ bench.desk.matcher.Sorts scope (.text "a") groups ∧
    ∃ own ∈ groups, own ≠ [] ∧ ∃ rows, Comes scope (.between (.int (-2)) (.int (-1))) 0 own rows ∧
      ¬∃ chosen : String → Bool, (∀ id, chosen id = true → id ∈ ["v0"]) ∧
        ∀ row ∈ rows, row.isSatisfied chosen = true := by
  have read : Count.read (.tuple [.int (-2), .int (-1)]) = .ok (.between (.int (-2)) (.int (-1))) := rfl
  obtain ⟨start, bench, mapping, built, reached, member, single⟩ := counted_single read
  have names : Count.numbers? (.tuple [.int (-2), .int (-1)]) = some [-2, -1] := rfl
  obtain ⟨ids, scope, groups, listed, -, sorts, all, each, -⟩ :=
    count_attainable mapping built reached read names member
  cases single.symm.trans listed
  obtain ⟨own, group, here⟩ := List.mem_flatten.mp (all.mem_iff.mpr List.mem_cons_self)
  obtain ⟨⟨rows, comes⟩, attainable⟩ := each own group
  have some : own ≠ [] := List.ne_nil_of_mem here
  refine ⟨start, bench, scope, groups, built, reached, single, sorts, own, group, some, rows, comes, ?_⟩
  rw [(attainable rows comes).2]
  simp [some]

end Bench

end Matchmaking
