import Matchmaking.Proofs.Matcher.Notes
import Matchmaking.Proofs.Matcher.Program

/-! Composed programs are closed, whatever has been done to a matcher and asked of it before, as long
as callers put listed identifiers into rows of their own. -/
namespace Matchmaking

open Stateful

/-- Whether the variables of a row are listed identifiers, as far as the row comes from a caller. -/
def RowSource.IsListed (ids : List String) : RowSource → Prop
  | .made row => row.IsOver ids
  | .again _ => True
  | .parts first last => ∀ row,
    Constraint.ofSpec (last.foldl (fun spec part => Keyed.put spec part.1 part.2) first) = .ok row → row.IsOver ids

def Call.IsListed (ids : List String) : Call → Prop
  | .addRow source => source.IsListed ids
  | _ => True

namespace Call

variable {table : Table} {call : Call} {desk next : Desk} {m : Matcher} {c : Constraint}

theorem Asks.isOver (sound : table.Sound) (space : m.space = .whole table) (asked : call.Asks m c)
    (listed : call.IsListed (View.whole table).ids) (rows : ∀ row ∈ m.constraints, row.IsOver (View.whole table).ids) :
    c.IsOver (View.whole table).ids := by
  have viewed {restriction : Keyed Value} {view : View} (narrowed : m.space.subset restriction = .ok view)
      (op : Operator) (target name : Value) : (Matcher.rowOf view op target name).IsOver (View.whole table).ids := by
    rw [space] at narrowed
    exact ⟨view.ids, rfl, View.ids_subset_whole sound (.subset .whole narrowed)⟩
  cases call with
  | addRow source =>
    cases source with
    | made row =>
      cases asked
      exact listed
    | again place => exact rows c (mem_of_rowFrom_again asked)
    | parts first last => exact listed c asked
  | exclude | excludeMarkers | require =>
    obtain ⟨_, _, _, narrowed, rfl⟩ := asked
    exact viewed narrowed _ _ _
  | _ => exact asked.elim

theorem run_within (sound : table.Sound) (whole : call.IsWhole) (listed : call.IsListed (View.whole table).ids)
    (held : desk.matcher.Holds table (Constraint.IsWithin (View.whole table).ids)) :
    (outcome call.run desk).2.matcher.Holds table (Constraint.IsWithin (View.whole table).ids) := by
  refine run_holds whole (fun _ within => within.isWhole) (fun desk c row namer held asked own naming => ?_) held
  have within := asked.isOver sound held.space listed fun row member => (held.rows row member).unknowns
  obtain ⟨name, rfl⟩ := (Matcher.nameRow_renames naming).1
  exact ⟨within, own.target⟩

end Call

namespace Bench

/-- The benches that actions lead to, whether they succeed or fail, with any namer, which others may
make use of in between. -/
inductive Reached (start : Matcher) : List Action → Bench → Prop where
  | start (namer : Namer) : Reached start [] ⟨⟨start, namer⟩, {}⟩
  | act {actions : List Action} {bench : Bench} (before : Reached start actions bench) (action : Action) :
      Reached start (actions ++ [action]) (outcome action.run bench).2
  | shared {actions : List Action} {bench : Bench} (before : Reached start actions bench) (namer : Namer) :
      Reached start actions { bench with desk.namer := namer }

variable {table : Table} {start : Matcher} {actions : List Action} {bench : Bench}

/-- What all calls keep of a matcher is true of it at every bench that is reached, and notes are right. -/
theorem Reached.keeps {holds : Matcher → Prop} (reached : Reached start actions bench) (fresh : holds start)
    (kept : ∀ call, .configure call ∈ actions → ∀ desk : Desk, holds desk.matcher →
      holds (outcome call.run desk).2.matcher) : bench.IsCoherent ∧ holds bench.desk.matcher := by
  induction reached with
  | start namer => exact ⟨coherent_fresh _, fresh⟩
  | @act actions bench before action ih =>
    obtain ⟨coherent, held⟩ := ih fun call member => kept call (List.mem_append_left _ member)
    obtain ⟨coherent, desk⟩ := action.run_leaves coherent
    refine ⟨coherent, ?_⟩
    rw [desk]
    cases action with
    | configure call => exact kept call (by simp) _ held
    | ask query => exact held
  | shared before namer ih => exact ih kept

theorem Reached.later (reached : Reached start actions bench) (more : List Action) :
    Reached start (actions ++ more) (bench.after more) := by
  induction more generalizing actions bench with
  | nil => simpa [after] using reached
  | cons action more ih =>
    have further := ih (reached.act action)
    rwa [List.append_assoc] at further

theorem Reached.space (reached : Reached start actions bench) :
    bench.IsCoherent ∧ bench.desk.matcher.space = start.space := by
  let shared (m : Matcher) : Prop := m.space = start.space
  have fresh : shared start := rfl
  exact reached.keeps fresh fun call _ desk same => show shared _ from Call.run_space.trans same

theorem Reached.within (sound : table.Sound) (reached : Reached start actions bench)
    (fresh : start.Holds table (Constraint.IsWithin (View.whole table).ids))
    (whole : ∀ call, .configure call ∈ actions → call.IsWhole)
    (listed : ∀ call, .configure call ∈ actions → call.IsListed (View.whole table).ids) :
    bench.IsCoherent ∧ bench.desk.matcher.Holds table (Constraint.IsWithin (View.whole table).ids) :=
  reached.keeps fresh fun call member _ => Call.run_within sound (whole call member) (listed call member)

theorem solve_idle (coherent : bench.IsCoherent) {p : Problem} (composed : bench.desk.problem = .ok p)
    (none : bench.desk.matcher.active = []) (registry : Registry) (backend timeLimit : Value) (world : World) :
    ∃ run next, outcome (solve registry backend timeLimit world) bench = (.ok run, next) ∧
      ∀ log, outcome run log = (.ok ⟨[], bench.desk.matcher.space.names⟩, log) := by
  obtain ⟨notes, found, -⟩ := solve_tells registry backend timeLimit world bench coherent
  dsimp only at found
  rw [composed, none] at found
  exact ⟨_, _, found, fun log => rfl⟩

/-- Whatever has been configured and asked before, the program that is composed is closed. If it has
no variables, it has no rows either, and it is solved without matches and without a solver. -/
theorem problem_closed {collections : Keyed Value} {backend timeLimit : Value} (mapping : collections.IsMapping)
    (built : Matcher.build collections backend timeLimit = .ok start) (reached : Reached start actions bench)
    (whole : ∀ call, .configure call ∈ actions → call.IsWhole)
    (listed : ∀ call, .configure call ∈ actions → call.IsListed start.space.ids) :
    ∃ ids p next, outcome problem bench = (.ok p, next) ∧ p.IsClosed ids ∧ ids ⊆ start.space.ids ∧
      (ids = [] → p.constraints = [] ∧ ∀ registry backend timeLimit world, ∃ run next,
        outcome (solve registry backend timeLimit world) bench = (.ok run, next) ∧
          ∀ log, outcome run log = (.ok ⟨[], start.space.names⟩, log)) := by
  obtain ⟨table, sound, -, -, fresh⟩ := Matcher.holds_of_build mapping built
  have space : start.space = .whole table := (fresh Constraint.IsPlain).space
  rw [space] at listed ⊢
  obtain ⟨coherent, held⟩ := reached.within sound (fresh _) whole listed
  obtain ⟨p, composed, closed⟩ := held.compose_closed sound bench.desk.namer.taken
  obtain ⟨notes, found, -⟩ := problem_tells bench coherent
  rw [Desk.problem, composed] at found
  refine ⟨bench.desk.matcher.active, p, _, found, closed, held.stands.active_subset sound, fun none => ?_⟩
  rw [none] at closed
  rw [← held.space]
  exact ⟨closed.no_rows, solve_idle coherent composed none⟩

/-- One tuple, which is noted before a row of a caller's, a composer and a count come. -/
theorem problem_closed_of_one : ∃ start bench ids p next,
    Matcher.build [(.text "a", .list [.text "x"])] .null .null = .ok start ∧
    Reached start [.ask .active, .configure (.addRow (.made ⟨[.text "v0"], .le, .int 1, .null, .bool false⟩)),
      .configure (.addComposer [] (.int 2)), .configure (.setCount (.text "a") (.int 1) (.int 0))] bench ∧
    outcome problem bench = (.ok p, next) ∧ p.IsClosed ids ∧ ids ⊆ start.space.ids := by
  obtain ⟨start, mapping, built, ids⟩ := Matcher.build_single
  let row : Call := .addRow (.made ⟨[.text "v0"], .le, .int 1, .null, .bool false⟩)
  let composer : Call := .addComposer [] (.int 2)
  let count : Call := .setCount (.text "a") (.int 1) (.int 0)
  have targeted : row.IsWhole := ⟨1, rfl⟩
  have weighed : composer.IsWhole := Call.addComposer_whole [] 2
  have counted : count.IsWhole := Call.setCount_whole (.text "a") 1 (.int 0)
  have own : row.IsListed start.space.ids := ⟨["v0"], rfl, by rw [ids]; exact List.Subset.refl _⟩
  have others : composer.IsListed start.space.ids ∧ count.IsListed start.space.ids := ⟨trivial, trivial⟩
  have reached : Reached start [.ask .active, .configure row, .configure composer, .configure count] _ :=
    ((((Reached.start {}).act (.ask .active)).act (.configure row)).act (.configure composer)).act (.configure count)
  obtain ⟨ids, p, next, composed, closed, subset, -⟩ := problem_closed mapping built reached
    (by simp [targeted, weighed, counted]) (by simp [own, others])
  exact ⟨start, _, ids, p, next, built, reached, composed, closed, subset⟩

end Bench

end Matchmaking
