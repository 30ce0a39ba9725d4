import Matchmaking.Proofs.Matcher.Weights

/-! The active identifiers sorted by the elements of a collection. Every tuple holds one element of each
collection, so each active identifier is a candidate for one element and for no other, and what is chosen for the
elements of a collection adds up to all that is chosen. The count rows of a collection are over just these groups,
one block of rows for each element. -/
namespace Matchmaking

open Stateful

namespace Matcher

variable {table : Table} {kind : Constraint → Prop} {rule : Count → Prop} {m : Matcher} {name e : Value}
  {collection : Value × Roster} {groups : List (List String)}

def candidates (m : Matcher) (scope : Option (Std.HashSet String)) (collection element : Value) :
    Except Failure (List String) := do
  return narrow scope (← m.space.idsWith collection element)

/-- Whether groups are the candidates for the elements of a collection, in the order of these. -/
def Sorts (m : Matcher) (scope : Option (Std.HashSet String)) (collection : Value) (groups : List (List String)) :
    Prop :=
  ∃ elements, m.space.table.elements collection = .ok elements ∧
    List.Forall₂ (fun e ids => m.candidates scope collection e = .ok ids) elements groups

theorem Sorts.unique {scope : Option (Std.HashSet String)} {others : List (List String)}
    (sorts : m.Sorts scope name groups) (sorts' : m.Sorts scope name others) : groups = others := by
  obtain ⟨elements, listed, each⟩ := sorts
  obtain ⟨elements', listed', each'⟩ := sorts'
  cases listed.symm.trans listed'
  exact Except.ok.inj ((mapM_eq_ok.mpr each).symm.trans (mapM_eq_ok.mpr each'))

/-- The candidates for an element are the active identifiers of tuples that hold it. -/
theorem candidates_ok (sound : table.Sound) (space : m.space = .whole table) (inside : collection ∈ table.collections)
    (key : name.isKey = true) (same : collection.1.same name = true) (present : e ∈ collection.2.keys) :
    ∃ ids, m.candidates m.scope name e = .ok ids ∧
      table.Lists ids fun row => m.activates table row && table.holdsAt collection.1 e row := by
  obtain ⟨ids, found, lists⟩ := View.idsWith_lists sound inside key same present
  exact ⟨narrow m.scope ids, by rw [candidates, space, found]; rfl, narrow_lists sound space lists⟩

/-- The active identifiers can be sorted by the elements of every collection. -/
theorem exists_sorts (sound : table.Sound) (space : m.space = .whole table) (inside : collection ∈ table.collections)
    (key : name.isKey = true) (same : collection.1.same name = true) : ∃ groups, m.Sorts m.scope name groups ∧
      List.Forall₂ (fun e ids => table.Lists ids fun row => m.activates table row && table.holdsAt collection.1 e row)
        collection.2.keys groups := by
  obtain ⟨groups, related⟩ := exists_forall₂ fun e present => candidates_ok sound space inside key same present
  have elements : m.space.table.elements name = .ok collection.2.keys := by
    rw [space]
    exact Table.elements_of_same sound inside key same
  exact ⟨groups, ⟨_, elements, related.imp fun _ _ both => both.1⟩, related.imp fun _ _ both => both.2⟩

/-- A tuple does not hold two different elements of a collection. -/
theorem same_of_holdsAt (sound : table.Sound) (inside : collection ∈ table.collections) {row : List Value}
    {other : Value} (member : row ∈ table.rows) (first : table.holdsAt collection.1 e row = true)
    (second : table.holdsAt collection.1 other row = true) : e.same other = true := by
  obtain ⟨held, here⟩ := Table.exists_mem_zip member inside
  have key := Table.isKey_of_mem_zip sound member here
  have own := (Table.holdsAt_iff sound member here).mp first
  exact Value.same_trans (Value.isKey_of_same key own) (Value.same_symm key own)
    ((Table.holdsAt_iff sound member here).mp second)

theorem Stands.sorts_apart (sound : table.Sound) (stands : m.Stands table kind rule)
    (inside : collection ∈ table.collections) (lists : List.Forall₂ (fun e ids => table.Lists ids fun row =>
      m.activates table row && table.holdsAt collection.1 e row) collection.2.keys groups) :
    groups.flatten.Nodup ∧ groups.flatten.Perm m.active := by
  have once : groups.flatten.Nodup := by
    refine List.nodup_flatten.mpr ⟨fun ids listed => ?_, ?_⟩
    · obtain ⟨e, -, own⟩ := exists_of_mem_right lists listed
      exact own.nodup sound
    · refine pairwise_of_forall₂ (fun first second apart id left right => ?_) lists
        (sound.elements collection inside).apart
      obtain ⟨row, member, holds, rfl⟩ := first.mem.mp left
      have holds' := (second.identify_mem sound member).mp right
      rw [same_of_holdsAt sound inside member (Bool.and_eq_true_iff.mp holds).2
        (Bool.and_eq_true_iff.mp holds').2] at apart
      cases apart
  refine ⟨once, (List.perm_ext_iff_of_nodup once (stands.nodup_active sound)).mpr fun id => ?_⟩
  rw [List.mem_flatten]
  constructor
  · rintro ⟨ids, listed, member⟩
    obtain ⟨e, -, own⟩ := exists_of_mem_right lists listed
    obtain ⟨row, -, holds, rfl⟩ := own.mem.mp member
    exact List.contains_iff_mem.mp (Bool.and_eq_true_iff.mp holds).1
  · intro active
    obtain ⟨row, member, -, rfl⟩ :=
      (View.mem_ids_iff (View.sound_whole sound)).mp (stands.active_subset sound active)
    have member : row ∈ table.rows := member
    obtain ⟨held, here⟩ := Table.exists_mem_zip member inside
    have present : held ∈ collection.2.keys := List.forall₂_zip (Table.mem_rows.mp member).2.flip here
    obtain ⟨ids, group, own⟩ := exists_of_mem_right lists.flip present
    refine ⟨ids, group, (Table.Lists.identify_mem sound own member).mpr (Bool.and_eq_true_iff.mpr ⟨?_, ?_⟩)⟩
    · exact List.contains_iff_mem.mpr active
    · exact (Table.holdsAt_iff sound member here).mpr (Value.same_refl (Table.isKey_of_mem_zip sound member here))

/-- The rows that a count rule makes for the candidates for one element, under names of their own. -/
def IsBlock (found : Count) (padding : Int) (ids : List String) (block : List Constraint) : Prop :=
  ∃ rows, countRows found padding ids = .ok rows ∧
    List.Forall₂ (fun c (c' : Constraint) => ∃ name, c' = { c with name }) rows block

theorem IsBlock.over {found : Count} {padding : Int} {ids : List String} {block : List Constraint}
    (made : IsBlock found padding ids block) : block ≠ [] ∧ ∀ row ∈ block, row.unknowns = ids.map .text := by
  obtain ⟨rows, made, renames⟩ := made
  constructor
  · intro none
    rw [none, List.forall₂_nil_right_iff] at renames
    rw [renames] at made
    cases found <;> obtain ⟨_, -, made⟩ := bind_eq_ok.mp made <;> cases made
  · intro row member
    obtain ⟨plain, inside, name, rfl⟩ := exists_of_mem_right renames member
    exact countRows_over made plain inside

theorem countConstraintsIn_blocks {scope : Option (Std.HashSet String)} {taken : Roster} {found : Count} {padding : Int}
    {rows : List Constraint} (made : m.countConstraintsIn scope taken = .ok rows)
    (member : (name, found, padding) ∈ m.counts) : ∃ groups blocks front back, m.Sorts scope name groups ∧
      rows = front ++ (blocks.flatten ++ back) ∧ List.Forall₂ (IsBlock found padding) groups blocks := by
  obtain ⟨all, each, named⟩ := bind_eq_ok.mp made
  cases named
  obtain ⟨before, after, split⟩ := List.append_of_mem member
  have related := mapM_eq_ok.mp each
  rw [split] at related
  obtain ⟨first, others, -, later, rfl⟩ := exists_append related
  obtain ⟨own, last, step, -, rfl⟩ := List.forall₂_cons_left_iff.mp later
  obtain ⟨elements, listed, step'⟩ := bind_eq_ok.mp step
  obtain ⟨plain, counting, joined⟩ := bind_eq_ok.mp step'
  cases joined
  have steps := (mapM_eq_ok.mp counting).imp fun e rows made => by
    obtain ⟨ids, having, counted⟩ := bind_eq_ok.mp made
    exact (⟨narrow scope ids, by rw [candidates, having]; rfl, counted⟩ :
      ∃ ids, m.candidates scope name e = .ok ids ∧ countRows found padding ids = .ok rows)
  obtain ⟨groups, sorted, counted⟩ := exists_between steps
  have renames := nameRows_renames { stem := "count", reserved := taken, taken }
    (first ++ plain.flatten :: last).flatten
  rw [List.flatten_append, List.flatten_cons] at renames
  obtain ⟨front, later, -, renamed, equal⟩ := exists_append renames
  obtain ⟨middle, back, owned, -, rfl⟩ := exists_append renamed
  obtain ⟨blocks, named, rfl⟩ := exists_flatten owned
  refine ⟨groups, blocks, front, back, ⟨elements, listed, sorted⟩, ?_, forall₂_comp counted named⟩
  rw [List.flatten_append, List.flatten_cons, equal]

end Matcher

namespace Bench

theorem counted_single {count : Value} {found : Count} (read : Count.read count = .ok found) : ∃ start bench,
    Keyed.IsMapping [(Value.text "a", Value.list [.text "x"])] ∧
    Matcher.build [(.text "a", .list [.text "x"])] .null .null = .ok start ∧
    Reached start [.configure (.setCount (.text "a") count (.int 0))] bench ∧
    (.text "a", found, 0) ∈ bench.desk.matcher.counts ∧ (outcome active bench).1 = .ok ["v0"] := by
  obtain ⟨start, mapping, built, ids⟩ := Matcher.build_single
  refine ⟨start, _, mapping, built, (Reached.start {}).act _, ?_⟩
  obtain ⟨table, -, given, rfl⟩ := Matcher.build_eq_ok mapping built
  obtain ⟨roster, shape, -⟩ := Table.shape_of_single rfl given
  have known : table.hasName (.text "a") = .ok true := congrArg Except.ok
    (Keyed.has_iff.mpr ⟨.text "a", by simp [shape, Keyed.keys], rfl⟩)
  let desk : Desk := ⟨{ space := .whole table }, {}⟩
  have gives := Call.setCount_puts (show desk.matcher.space.table.hasName (.text "a") = .ok true from known) read
    (show (Value.int 0).readInt = .ok 0 from rfl)
  obtain ⟨coherent, left⟩ := Action.run_leaves (.configure (.setCount (.text "a") count (.int 0))) (coherent_fresh desk)
  replace left := left.trans (congrArg Prod.snd gives)
  rw [active_tells.answers coherent, left]
  exact ⟨List.mem_cons_self, congrArg Except.ok ids⟩

/-- Whatever has been configured and asked before, the candidates for the elements of a counted collection are lists
without repetitions of which no two share an identifier, and together they are just the active identifiers. Whatever is
chosen, what is chosen of each list adds up to all that is chosen. If count rows can be made, there is a block of them
for each element, and they are over the candidates for it. -/
theorem candidates_partition {collections : Keyed Value} {backend timeLimit : Value} {start : Matcher}
    {actions : List Action} {bench : Bench} (mapping : collections.IsMapping)
    (built : Matcher.build collections backend timeLimit = .ok start) (reached : Reached start actions bench)
    {name : Value} {found : Count} {padding : Int} (member : (name, found, padding) ∈ bench.desk.matcher.counts) :
    ∃ ids scope groups, (outcome active bench).1 = .ok ids ∧ (outcome Bench.scope bench).1 = .ok scope ∧
      bench.desk.matcher.Sorts scope name groups ∧
      (∀ own ∈ groups, own.Nodup) ∧ groups.Pairwise List.Disjoint ∧
      ids.Nodup ∧ (∀ id, id ∈ ids ↔ ∃ own ∈ groups, id ∈ own) ∧
      (∀ chosen : String → Bool, (groups.map (·.countP chosen)).sum = ids.countP chosen) ∧
      ∀ rows, (outcome countConstraints bench).1 = .ok rows → ∃ blocks front back,
        rows = front ++ (blocks.flatten ++ back) ∧ List.Forall₂
          (fun own block => block ≠ [] ∧ ∀ row ∈ block, row.unknowns = own.map .text) groups blocks := by
  obtain ⟨table, sound, coherent, stands⟩ := reached.stands mapping built
  obtain ⟨key, collection, inside, same⟩ := stands.known name (List.mem_map_of_mem member)
  obtain ⟨groups, sorts, lists⟩ := Matcher.exists_sorts sound stands.space inside key same
  obtain ⟨once, all⟩ := stands.sorts_apart sound inside lists
  obtain ⟨each, apart⟩ := List.nodup_flatten.mp once
  refine ⟨_, _, groups, active_tells.answers coherent, scope_tells.answers coherent, sorts, each, apart,
    stands.nodup_active sound, fun id => ?_, fun chosen => ?_, fun rows made => ?_⟩
  · rw [← all.mem_iff, List.mem_flatten]
  · rw [← all.countP_eq chosen, List.countP_flatten]
  · rw [countConstraints_tells.answers coherent] at made
    obtain ⟨groups', blocks, front, back, sorts', equal, counted⟩ := Matcher.countConstraintsIn_blocks made member
    cases sorts.unique sorts'
    exact ⟨blocks, front, back, equal, counted.imp fun _ _ made => made.over⟩

/-- Four active tuples are sorted by the elements of a collection, and one that is not active is left out. -/
theorem candidates_partition_of_grid : ∃ start bench scope,
    Matcher.build Matcher.grid .null .null = .ok start ∧ Reached start (Matcher.gridCalls.map .configure) bench ∧
    (outcome active bench).1 = .ok ["v0x0", "v0x1", "v0x2", "v1x0"] ∧ (outcome Bench.scope bench).1 = .ok scope ∧
    bench.desk.matcher.Sorts scope (.text "a") [["v0x0", "v0x1", "v0x2"], ["v1x0"]] ∧
    (∀ chosen : String → Bool, ["v0x0", "v0x1", "v0x2"].countP chosen + ["v1x0"].countP chosen =
      ["v0x0", "v0x1", "v0x2", "v1x0"].countP chosen) ∧
    ∀ rows, (outcome countConstraints bench).1 = .ok rows → ∃ blocks front back,
      rows = front ++ (blocks.flatten ++ back) ∧ List.Forall₂
        (fun own block => block ≠ [] ∧ ∀ row ∈ block, row.unknowns = own.map .text)
        [["v0x0", "v0x1", "v0x2"], ["v1x0"]] blocks := by
  obtain ⟨table, bench, built, -, made, reached, coherent, -⟩ := exists_grid
  have member : (.text "a", .exactly (.int 1), 0) ∈ bench.desk.matcher.counts := by simp [made.counts]
  obtain ⟨ids, scope, groups, listed, seen, sorts, -, -, -, -, sums, blocks⟩ :=
    candidates_partition Matcher.grid_isMapping built reached member
  cases listed.symm.trans (active_tells.answers coherent)
  cases seen.symm.trans (scope_tells.answers coherent)
  have elements : bench.desk.matcher.space.table.elements (.text "a") = .ok [.text "x", .text "y"] := by
    rw [made.stands.space]
    exact made.elements
  have own : bench.desk.matcher.Sorts bench.desk.matcher.scope (.text "a") [["v0x0", "v0x1", "v0x2"], ["v1x0"]] := by
    refine ⟨_, elements, .cons ?_ (.cons ?_ .nil)⟩
    · rw [Matcher.candidates, made.first, ok_bind, Matcher.narrow_scope made.filled, made.active]
      rfl
    · rw [Matcher.candidates, made.second, ok_bind, Matcher.narrow_scope made.filled, made.active]
      rfl
  cases sorts.unique own
  rw [made.active] at listed sums
  exact ⟨_, bench, _, built, reached, listed, seen, own, fun chosen => by simpa using sums chosen, blocks⟩

end Bench

end Matchmaking
