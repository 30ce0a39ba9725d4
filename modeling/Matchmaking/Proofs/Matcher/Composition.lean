import Matchmaking.Proofs.Matcher.Counts
import Matchmaking.Proofs.Matcher.Objective

/-! What a composed program means. Whatever calls a matcher was configured by, in whatever order,
its rows are satisfied by a choice of identifiers just if the rows of elements that it stands for
obey every call and hold every element as often as its collection's count asks. -/
namespace Matchmaking

def Call.WeighsWhole (call : Call) : Prop := ∀ weight, call.weight? = some weight → Weight.IsWhole weight

namespace Matcher

variable {table : Table} {calls : List Call} {m : Matcher}

/-- The rows of a composed program enforce all rules, whatever becomes of its objective. -/
theorem Configured.compose_eq (sound : table.Sound) (configured : Configured table calls m)
    (rules : ∀ call ∈ calls, call.IsRule) (taken : Roster) : ∃ rows : List Constraint,
      (m.compose taken = do return ⟨.list (m.active.map .text), ← m.objective, rows⟩) ∧
      ∀ selected chosen, table.Within (table.isActive calls) selected → table.Chooses selected chosen →
        ((∀ row ∈ rows, row.isSatisfied chosen = true) ↔
          (∀ call ∈ calls, table.Obeyed (table.isActive calls) selected call) ∧
            table.Counted calls (table.isActive calls) selected) := by
  obtain ⟨counts, made, counted⟩ := countConstraints_enforces sound configured rules taken
  have enforces := (Enforces.of_amountsTo sound configured configured.rows).append counted
  obtain ⟨kept, related⟩ := exists_forall₂ enforces.succeeds
  have finalized : (m.constraints ++ counts).mapM (fun c => c.keeping (narrowRow m.scope c.unknowns)) = .ok kept :=
    mapM_eq_ok.mpr related
  refine ⟨kept.filterMap id, ?_, fun selected chosen within chooses => ?_⟩
  · simp only [compose, composeIn, made, ok_bind, finalized]
  · rw [← enforces.satisfied selected chosen within chooses]
    simp only [List.mem_filterMap, id_eq, exists_eq_right]
    constructor
    · intro holds c member row keeps
      obtain ⟨found, inside, keeps'⟩ := exists_of_mem_right related.flip member
      cases keeps.symm.trans keeps'
      exact holds row inside
    · intro holds row inside
      obtain ⟨c, member, keeps⟩ := exists_of_mem_right related inside
      exact holds c member row keeps

theorem encode_whole_row (sound : table.Sound) {row : List Value} (member : row ∈ table.rows) {id : String} :
    (View.whole table).encode (.tuple row) = .ok id ↔ table.identify row = id := by
  rw [View.encode_row (View.sound_whole sound) member, View.has_whole sound member]
  exact ⟨And.right, fun equal => ⟨rfl, equal⟩⟩

theorem chooses_of_encode (sound : table.Sound) {active selected : List Value → Bool} {chosen : String → Bool}
    (within : table.Within active selected) (stands : ∀ id, chosen id = true ↔
      ∃ row, selected row = true ∧ (View.whole table).encode (.tuple row) = .ok id) :
    table.Chooses selected chosen := by
  intro row member
  rw [Bool.eq_iff_iff, stands]
  constructor
  · rintro ⟨other, picked, encodes⟩
    have inside := (within other picked).1
    rwa [← Table.identify_injective sound inside member ((encode_whole_row sound inside).mp encodes)]
  · exact fun picked => ⟨row, picked, (encode_whole_row sound member).mpr rfl⟩

/-- A program composed by calls: its variables are the identifiers of the active rows, and its
rows are satisfied by the identifiers of selected rows just if the selection obeys all calls and
holds all elements as often as they are counted. -/
structure ComposedBy (table : Table) (calls : List Call) (taken : Roster) (m : Matcher)
    (rows : List Constraint) : Prop where
  space : m.space = .whole table
  program : m.compose taken = do return ⟨.list (m.active.map .text), ← m.objective, rows⟩
  objective : (∀ call ∈ calls, call.WeighsWhole) → ∃ objective, m.objective = .ok objective
  active : ∀ id, id ∈ m.active ↔
    ∃ row ∈ table.rows, table.isActive calls row = true ∧ m.space.encode (.tuple row) = .ok id
  satisfied : ∀ selected chosen, table.Within (table.isActive calls) selected →
    (∀ id, chosen id = true ↔ ∃ row, selected row = true ∧ m.space.encode (.tuple row) = .ok id) →
      ((∀ row ∈ rows, row.isSatisfied chosen = true) ↔
        (∀ call ∈ calls, table.Obeyed (table.isActive calls) selected call) ∧
          table.Counted calls (table.isActive calls) selected)

theorem Configured.composedBy (sound : table.Sound) (configured : Configured table calls m)
    (rules : ∀ call ∈ calls, call.IsRule) (taken : Roster) : ∃ rows, ComposedBy table calls taken m rows := by
  obtain ⟨rows, program, satisfied⟩ := configured.compose_eq sound rules taken
  refine ⟨rows, configured.space, program, fun whole => ?_, fun id => ?_, fun selected chosen within stands => ?_⟩
  · obtain ⟨objective, found, -⟩ := objective_ok (fun composer listed => (configured.weights composer listed).1)
      fun composer listed => by
        obtain ⟨-, call, member, weighed⟩ := configured.weights composer listed
        exact whole call member _ weighed
    exact ⟨objective, found⟩
  · rw [configured.mem_active sound, configured.space]
    exact exists_congr fun row => and_congr_right fun member =>
      and_congr_right fun _ => (encode_whole_row sound member).symm
  · rw [configured.space] at stands
    exact satisfied selected chosen within (chooses_of_encode sound within stands)

/-- Composition means what the rules say, after any run of successful calls. -/
theorem composed_of_run {collections : Keyed Value} {backend timeLimit : Value} {start : Matcher}
    (mapping : collections.IsMapping) (built : build collections backend timeLimit = .ok start)
    (run : Run start calls m) (rules : ∀ call ∈ calls, call.IsRule) (taken : Roster) :
    ∃ table rows, List.Forall₂ (fun given entry => entry.1 = given.1 ∧ given.2.items = .ok entry.2.keys)
      (collections.inTurn []) table.collections ∧ ComposedBy table calls taken m rows := by
  obtain ⟨table, sound, given, fresh⟩ := configured_of_build mapping built
  obtain ⟨rows, composed⟩ := (run.configured sound fresh rules).composedBy sound rules taken
  exact ⟨table, rows, given, composed⟩

/-- Two collections, of which the tuples with the first element of one are composed and the
element of the other is counted. -/
theorem composed_of_two_calls : ∃ start m table rows,
    build [(.text "a", .list [.int 0, .int 1]), (.text "b", .list [.text "x"])] .null .null = .ok start ∧
    Run start [.addComposer [(.text "a", .list [.int 0])] (.int 1), .setCount (.text "b") (.int 1) (.int 0)] m ∧
    ComposedBy table [.addComposer [(.text "a", .list [.int 0])] (.int 1),
      .setCount (.text "b") (.int 1) (.int 0)] .empty m rows := by
  have mapping : Keyed.IsMapping [(Value.text "a", Value.list [.int 0, .int 1]), (.text "b", .list [.text "x"])] :=
    ⟨by decide, by decide⟩
  have different : ∀ given ∈ Keyed.inTurn [] [(Value.text "a", Value.list [.int 0, .int 1]), (.text "b", .list [.text "x"])],
      ∃ items, given.2.items = .ok items ∧ Value.Different items := by
    intro given member
    rcases List.mem_pair.mp member with rfl | rfl
    · exact ⟨_, rfl, by decide, by decide⟩
    · exact ⟨_, rfl, by decide, by decide⟩
  have includes : (Call.addComposer [(.text "a", .list [.int 0])] (.int 1)).IsRule := trivial
  have counts : (Call.setCount (.text "b") (.int 1) (.int 0)).IsRule := ⟨.inl rfl, 0, rfl⟩
  obtain ⟨start, built⟩ := build_succeeds .null .null different
  obtain ⟨table, sound, given, fresh⟩ := configured_of_build mapping built
  have space := fresh.space
  obtain ⟨a, inside, name, elements⟩ := exists_of_mem_right given.flip List.mem_cons_self
  obtain ⟨b, inside', name', -⟩ := exists_of_mem_right given.flip (List.mem_cons_of_mem _ List.mem_cons_self)
  have present : Value.int 0 ∈ a.2.keys := by
    rw [← Except.ok.inj elements]
    exact List.mem_cons_self
  have same : a.1.same (.text "a") = true := by rw [name]; rfl
  have same' : b.1.same (.text "b") = true := by rw [name']; rfl
  obtain ⟨view, narrowed⟩ := View.subset_single (View.sound_whole sound) inside rfl same present
  rw [← space] at narrowed
  have weighed : Weight.check (.int 1) = .ok (.int 1) := rfl
  have read : Count.read (.int 1) = .ok (.exactly (.int 1)) := rfl
  have padded : (Value.int 0).readInt = .ok 0 := rfl
  let desk : Desk := ⟨start, default⟩
  let m : Matcher := start.withComposers (if view.isEmpty then [] else [⟨.int 1, view⟩])
  obtain ⟨added, first⟩ := Call.addComposer_puts desk weighed narrowed
  have known : m.space.table.hasName (.text "b") = .ok true := by
    rw [show m.space = _ from space, Table.hasName]
    exact congrArg Except.ok (Keyed.has_iff.mpr ⟨b.1, List.mem_map_of_mem inside', same'⟩)
  have second : (Call.setCount (.text "b") (.int 1) (.int 0)).run.Gives ⟨m, default⟩ _ _ :=
    Call.setCount_puts known read padded
  have run := Run.call (.call .start first) second
  obtain ⟨table, rows, -, composed⟩ := composed_of_run mapping built run (by simp [includes, counts]) .empty
  exact ⟨start, _, table, rows, built, run, composed⟩

end Matcher

end Matchmaking
