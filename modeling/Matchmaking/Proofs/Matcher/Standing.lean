import Matchmaking.Proofs.Matcher.Acceptance
import Matchmaking.Proofs.Matcher.Counts
import Matchmaking.Proofs.Matcher.Edits
import Matchmaking.Proofs.Matcher.Objective
import Matchmaking.Proofs.Value.Grouping

/-! What a matcher keeps through all calls, whatever values it is given: its space, rows of some kind,
composers of views with checked weights and rules of some kind for known collections. A program that is
composed from it is over the active identifiers and nothing else. -/
namespace Matchmaking

/-- A matcher over the whole of a table, with rows of a kind and with count rules of a kind. -/
structure Matcher.Stands (table : Table) (kind : Constraint → Prop) (rule : Count → Prop) (m : Matcher) : Prop where
  space : m.space = .whole table
  rows : ∀ c ∈ m.constraints, kind c
  composers : ∀ composer ∈ m.composers,
    View.Of table composer.view ∧ Weight.check composer.weight = .ok composer.weight
  known : ∀ name ∈ m.counts.keys, name.isKey = true ∧ ∃ collection ∈ table.collections, collection.1.same name = true
  counts : ∀ entry ∈ m.counts, rule entry.2.1

/-- A kind of numbers, to which all whole numbers belong. -/
structure Value.IsKind (good : Value → Prop) : Prop where
  number : ∀ v, good v → ∃ n, v = .ofNumber n
  whole : ∀ z, good (.int z)

theorem Value.isKind_whole : IsKind fun v => ∃ z, v = .int z where
  number := by
    rintro v ⟨z, rfl⟩
    exact ⟨.whole z, rfl⟩
  whole z := ⟨z, rfl⟩

theorem Value.IsKind.atMost {good : Value → Prop} (kind : IsKind good) {v : Value} (fine : good v) (count : Int) :
    ∃ t, v.atMost count = .ok t ∧ good t := by
  obtain ⟨n, rfl⟩ := kind.number v fine
  refine ⟨_, by rw [Value.atMost, number_ofNumber, ok_bind]; rfl, ?_⟩
  split
  · exact kind.whole count
  · exact fine

def Count.Has (good : Value → Prop) : Count → Prop
  | .exactly count => good count
  | .between minimum maximum => good minimum ∧ good maximum

/-- Whether the target of a row is of a kind, as far as the row comes from a caller. -/
def RowSource.Has (good : Value → Prop) : RowSource → Prop
  | .made row => good row.target
  | .again _ => True
  | .parts first last => ∀ row,
    Constraint.ofSpec (last.foldl (fun spec part => Keyed.put spec part.1 part.2) first) = .ok row → good row.target

/-- Whether the targets and counts of a call are of a kind; counts that are refused do not matter. -/
def Call.Has (good : Value → Prop) : Call → Prop
  | .addRow source => source.Has good
  | .setCount _ count _ => ∀ rule, Count.read count = .ok rule → rule.Has good
  | .require _ _ target _ => target = .null ∨ good target
  | _ => True

def Call.Counts (rule : Count → Prop) : Call → Prop
  | .setCount _ count _ => ∀ found, Count.read count = .ok found → rule found
  | _ => True

theorem Call.Has.counts {good : Value → Prop} {call : Call} (has : call.Has good) : call.Counts (Count.Has good) := by
  cases call with
  | setCount => exact has
  | _ => trivial

variable {table : Table} {kind : Constraint → Prop} {rule : Count → Prop}

theorem View.text_of_contains {view : View} {v : Value} (taken : view.contains v = true) : ∃ s, v = .text s := by
  obtain ⟨row, reads, -⟩ := contains_iff.mp taken
  obtain ⟨s, found, text, parts, -⟩ := Identifier.read_eq_ok.mp reads
  cases v with
  | text value => exact ⟨value, rfl⟩
  | operator op =>
    rw [← Option.some.inj text] at parts
    cases op <;> cases parts
  | _ => cases text

namespace Call

variable {call : Call} {desk next : Desk} {m : Matcher} {c : Constraint}

theorem texts_of_check {space : View} (checked : Matcher.checkVariables space c.unknowns = .ok ()) :
    ∃ ids : List String, c.unknowns = ids.map .text := by
  have each := fun v member => View.text_of_contains (Matcher.checkVariables_eq_ok.mp checked v member)
  obtain ⟨ids, related⟩ := exists_forall₂ each
  exact ⟨ids, List.forall₂_eq_eq_eq ▸ List.forall₂_map_right_iff.mpr related⟩

theorem mem_of_rowFrom_again {place : Int} (found : rowFrom m (.again place) = .ok c) : c ∈ m.constraints := by
  rw [rowFrom] at found
  generalize (if place < 0 then place + m.constraints.length else place) = place at found
  by_cases inside : 0 ≤ place
  · rw [if_pos inside] at found
    cases listed : m.constraints[place.toNat]? with
    | none =>
      rw [listed] at found
      cases found
    | some other =>
      rw [listed] at found
      cases found
      exact List.mem_of_getElem? listed
  · rw [if_neg inside] at found
    cases found

/-- The target of a row that is asked for is of a kind if those of the caller and of the matcher are. -/
theorem Asks.target {good : Value → Prop} (whole : ∀ z, good (.int z)) (asked : call.Asks m c) (has : call.Has good)
    (rows : ∀ row ∈ m.constraints, good row.target) : good c.target := by
  cases call with
  | addRow source =>
    cases source with
    | made row =>
      cases asked
      exact has
    | again place => exact rows c (mem_of_rowFrom_again asked)
    | parts first last => exact has c asked
  | exclude | excludeMarkers =>
    obtain ⟨_, _, _, -, rfl⟩ := asked
    exact whole 0
  | require op restriction target name =>
    obtain ⟨_, view, _, -, rfl⟩ := asked
    rcases has with rfl | fine
    · exact whole view.size
    · cases target with
      | null => exact whole view.size
      | _ => exact fine
  | _ => exact asked.elim

theorem Edit.stands (edit : call.Edit desk next) (given : call.Counts rule) (joins : ∀ c row namer,
      call.Asks desk.matcher c → Matcher.checkVariables desk.matcher.space c.unknowns = .ok () →
      Matcher.nameRow desk.namer c = .ok (row, namer) → kind row) (held : desk.matcher.Stands table kind rule) :
    next.matcher.Stands table kind rule := by
  cases edit with
  | @row c row namer asked checked naming =>
    have added := joins c row namer asked checked naming
    refine { held with rows := List.forall_mem_append.mpr ⟨held.rows, fun other member => ?_⟩ }
    rwa [List.mem_singleton.mp member]
  | @composer restriction composer asked checked narrowed =>
    rw [held.space] at narrowed
    refine { held with composers := List.forall_mem_append.mpr ⟨held.composers, fun other member => ?_⟩ }
    rw [List.mem_singleton.mp member]
    exact ⟨.subset .whole narrowed, checked⟩
  | @count collection count padding found p asked known read =>
    rw [asked] at given
    rw [held.space] at known
    refine { held with known := fun name member => ?_, counts := fun entry member => ?_ }
    · rcases Keyed.mem_keys_alter member with old | rfl
      · exact held.known name old
      · exact Table.known_of_hasName known
    · rcases Keyed.mem_put member with old | new
      · exact held.counts entry old
      · rw [new]
        exact given found read

theorem run_stands (given : call.Counts rule) (joins : ∀ (desk : Desk) c row namer,
      desk.matcher.Stands table kind rule → call.Asks desk.matcher c →
      Matcher.checkVariables desk.matcher.space c.unknowns = .ok () →
      Matcher.nameRow desk.namer c = .ok (row, namer) → kind row) (held : desk.matcher.Stands table kind rule) :
    (Stateful.outcome call.run desk).2.matcher.Stands table kind rule :=
  run_keeps (fun next => next.matcher.Stands table kind rule)
    (fun desk _ edit held => edit.stands given (fun c row namer => joins desk c row namer held) held) held

end Call

theorem Matcher.stands_of_build {collections : Keyed Value} {backend timeLimit : Value} {start : Matcher}
    (mapping : collections.IsMapping) (built : build collections backend timeLimit = .ok start) :
    ∃ table : Table, table.Sound ∧ ∀ kind rule, start.Stands table kind rule := by
  obtain ⟨table, sound, -, rfl⟩ := build_eq_ok mapping built
  exact ⟨table, sound, fun kind rule => ⟨rfl, by simp, by simp, by simp [Keyed.keys], by simp⟩⟩

namespace Matcher

variable {m : Matcher}

/-- A count rule with its padding and the identifiers of one element. -/
structure Part where
  rule : Count
  padding : Int
  ids : List String

def Part.rows (scope : Option (Std.HashSet String)) (part : Part) : Except Failure (List Constraint) :=
  countRows part.rule part.padding (narrow scope part.ids)

theorem narrow_subset (scope : Option (Std.HashSet String)) (ids : List String) : narrow scope ids ⊆ ids := by
  cases scope with
  | none => exact List.Subset.refl _
  | some active => exact List.filter_sublist.subset

theorem countRows_over {found : Count} {padding : Int} {ids : List String} {rows : List Constraint}
    (made : countRows found padding ids = .ok rows) : ∀ c ∈ rows, c.unknowns = ids.map .text := by
  cases found with
  | exactly count =>
    obtain ⟨target, -, made⟩ := bind_eq_ok.mp made
    cases made
    simp
  | between minimum maximum =>
    obtain ⟨target, -, made⟩ := bind_eq_ok.mp made
    cases made
    simp

theorem countRows_ok {good : Value → Prop} (kind : Value.IsKind good) {found : Count} (has : found.Has good)
    (padding : Int) (ids : List String) : ∃ rows, countRows found padding ids = .ok rows ∧ ∀ c ∈ rows, good c.target := by
  cases found with
  | exactly count =>
    obtain ⟨t, lowered, fine⟩ := kind.atMost has ids.length
    refine ⟨_, by simp only [countRows, lowered, ok_bind]; rfl, ?_⟩
    simpa using fine
  | between minimum maximum =>
    obtain ⟨t, lowered, fine⟩ := kind.atMost has.1 (ids.length - padding)
    refine ⟨_, by simp only [countRows, lowered, ok_bind]; rfl, ?_⟩
    simpa using ⟨fine, has.2⟩

/-- The count rows of a matcher are those of the parts that its counts come to, named anew. -/
theorem Stands.countConstraints_eq (sound : table.Sound) (stands : m.Stands table kind rule) : ∃ parts : List Part,
    (∀ part ∈ parts, rule part.rule ∧ part.ids ⊆ (View.whole table).ids) ∧ ∀ taken, m.countConstraints taken = do
      let rows ← parts.mapM (Part.rows m.scope)
      return (nameRows { stem := "count", reserved := taken, taken } rows.flatten).1 := by
  have each : ∀ entry ∈ m.counts, ∃ parts : List Part,
      (∀ part ∈ parts, rule part.rule ∧ part.ids ⊆ (View.whole table).ids) ∧ (do
        let elements ← m.space.table.elements entry.1
        let rows ← elements.mapM fun element => do
          let ids ← m.space.idsWith entry.1 element
          countRows entry.2.1 entry.2.2 (narrow m.scope ids)
        return rows.flatten : Except Failure (List Constraint)) =
          do return (← parts.mapM (Part.rows m.scope)).flatten := by
    intro entry member
    obtain ⟨key, collection, inside, same⟩ := stands.known entry.1 (List.mem_map_of_mem member)
    have elements : m.space.table.elements entry.1 = .ok collection.2.keys := by
      rw [stands.space]
      exact Table.elements_of_same sound inside key same
    have single : ∀ e ∈ collection.2.keys, ∃ part : Part, (rule part.rule ∧ part.ids ⊆ (View.whole table).ids) ∧
        (do countRows entry.2.1 entry.2.2 (narrow m.scope (← m.space.idsWith entry.1 e))) = part.rows m.scope := by
      intro e present
      obtain ⟨view, narrowed⟩ := View.subset_single (View.sound_whole sound) inside key same present
      have found : m.space.idsWith entry.1 e = .ok view.ids := by
        rw [stands.space, View.idsWith, narrowed]
        rfl
      refine ⟨⟨entry.2.1, entry.2.2, view.ids⟩, ⟨stands.counts entry member, ?_⟩, by rw [found]; rfl⟩
      exact View.ids_subset_whole sound (.subset .whole narrowed)
    obtain ⟨parts, related⟩ := exists_forall₂ single
    refine ⟨parts, fun part listed => ?_, ?_⟩
    · obtain ⟨_, -, both⟩ := exists_of_mem_right related listed
      exact both.1
    · rw [elements, ok_bind, mapM_congr (related.imp fun _ _ both => both.2)]
  obtain ⟨partss, related⟩ := exists_forall₂ each
  refine ⟨partss.flatten, fun part member => ?_, fun taken => ?_⟩
  · obtain ⟨parts, inside, listed⟩ := List.mem_flatten.mp member
    obtain ⟨_, -, both⟩ := exists_of_mem_right related inside
    exact both.1 part listed
  · have joined := mapM_flatten (Part.rows m.scope) partss
    have named := congrArg (· >>= fun rows => (pure (nameRows { stem := "count", reserved := taken, taken } rows).1 :
      Except Failure (List Constraint))) joined
    simp only [bind_assoc, pure_bind] at named
    rw [← named, ← mapM_congr (related.imp fun _ _ both => both.2)]
    rfl

end Matcher

end Matchmaking
