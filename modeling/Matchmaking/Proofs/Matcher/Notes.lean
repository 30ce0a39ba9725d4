import Matchmaking.Matcher.Bench
import Matchmaking.Proofs.Matcher.Edits

/-! Notes make no difference. What is noted of the active identifiers is right whenever it is looked
up, so a call on a bench does at the desk what it does without notes, and a question is answered from
the desk as it is. -/
namespace Matchmaking

open Stateful

theorem Call.run_composers {call : Call} (none : call.weight? = none) (desk : Desk) :
    (outcome call.run desk).2.matcher.composers = desk.matcher.composers := by
  have kept (mid next : Desk) (edit : call.Edit mid next) (held : mid.matcher.composers = desk.matcher.composers) :
      next.matcher.composers = desk.matcher.composers := by
    cases edit with
    | composer asked =>
      rw [none] at asked
      cases asked
    | _ => exact held
  exact Call.run_keeps (fun next => next.matcher.composers = desk.matcher.composers) kept rfl

theorem Call.run_active {call : Call} (none : call.weight? = none) (desk : Desk) :
    (outcome call.run desk).2.matcher.active = desk.matcher.active := by
  rw [Matcher.active, Matcher.active, Call.run_composers none, Call.run_space]

namespace Bench

variable {α β : Type} {bench : Bench}

/-- If active identifiers are noted, they are what the active identifiers are. -/
def IsCoherent (bench : Bench) : Prop :=
  ∀ ids, bench.notes.active = some ids → ids = bench.desk.matcher.active ∧ bench.notes.members = .ofList ids

theorem coherent_fresh (desk : Desk) : IsCoherent ⟨desk, {}⟩ := by
  rintro ids ⟨⟩

theorem outcome_atDesk (step : Setup α) : outcome (atDesk step) bench =
    ((outcome step bench.desk).1, { bench with desk := (outcome step bench.desk).2 }) := rfl

/-- Using a coherent bench comes to a step at its desk and leaves the bench coherent. -/
def Mirrors (use : Use α) (step : Setup α) : Prop :=
  ∀ bench : Bench, bench.IsCoherent → ∃ notes,
    outcome use bench = ((outcome step bench.desk).1, ⟨(outcome step bench.desk).2, notes⟩) ∧
      IsCoherent ⟨(outcome step bench.desk).2, notes⟩

namespace Mirrors

theorem pure (a : α) : Mirrors (pure a) (pure a) := fun bench coherent => ⟨bench.notes, rfl, coherent⟩

theorem lift (found : Except Failure α) : Mirrors (liftM found) (liftM found) :=
  fun bench coherent => ⟨bench.notes, rfl, coherent⟩

theorem bind {use : Use α} {step : Setup α} {rest : α → Use β} {rest' : α → Setup β} (first : Mirrors use step)
    (others : ∀ a, Mirrors (rest a) (rest' a)) : Mirrors (use >>= rest) (step >>= rest') := by
  intro bench coherent
  obtain ⟨notes, found, coherent⟩ := first bench coherent
  rw [outcome_bind, outcome_bind, found]
  rcases stepped : outcome step bench.desk with ⟨failure | a, mid⟩ <;> rw [stepped] at coherent
  · exact ⟨notes, rfl, coherent⟩
  · exact others a ⟨mid, notes⟩ coherent

theorem mapM {use : β → Use α} {step : β → Setup α} (each : ∀ x, Mirrors (use x) (step x)) (xs : List β) :
    Mirrors (xs.mapM use) (xs.mapM step) := by
  induction xs with
  | nil => exact pure []
  | cons x xs ih =>
    rw [List.mapM_cons, List.mapM_cons]
    exact bind (each x) fun _ => bind ih fun _ => pure _

theorem leaves {use : Use α} {step : Setup α} (mirrors : Mirrors use step) (coherent : bench.IsCoherent) :
    (outcome use bench).2.IsCoherent ∧ (outcome use bench).2.desk = (outcome step bench.desk).2 := by
  obtain ⟨notes, found, coherent⟩ := mirrors bench coherent
  rw [found]
  exact ⟨coherent, rfl⟩

theorem atDesk {call : Call} (none : call.weight? = none) : Mirrors (Bench.atDesk call.run) call.run :=
  fun bench coherent => ⟨bench.notes, rfl, fun ids noted => by
    rw [Call.run_active none]
    exact coherent ids noted⟩

end Mirrors

/-- A composer is added to a bench without noted identifiers. -/
theorem addComposer_mirrors (restriction : Keyed Value) (weight : Value) :
    Mirrors (addComposer restriction weight) (Matcher.addComposer restriction weight) := by
  intro bench coherent
  unfold addComposer Matcher.addComposer
  rw [outcome_bind, outcome_bind, outcome_atDesk, Matcher.outcome_offer]
  cases (do return ⟨← Weight.check weight, ← bench.desk.matcher.space.subset restriction⟩ :
      Except Failure Composer) with
  | error failure => exact ⟨bench.notes, rfl, coherent⟩
  | ok composer =>
    refine ⟨{ bench.notes with active := none }, rfl, ?_⟩
    rintro ids ⟨⟩

theorem includeMarkers_mirrors (map : MarkerMap) (weight : Value) :
    Mirrors (includeMarkers map weight) (Matcher.includeMarkers map weight) :=
  (Mirrors.lift map.pairs).bind fun _ => (Mirrors.mapM (fun _ => addComposer_mirrors _ _) _).bind fun _ => .pure _

theorem configure_eq {call : Call} (none : call.weight? = none) : configure call = atDesk call.run := by
  cases call with
  | addComposer | includeMarkers => cases none
  | _ => rfl

/-- A call on a bench is the call at its desk. -/
theorem configure_mirrors (call : Call) : Mirrors (configure call) call.run := by
  cases added : call.weight? with
  | none =>
    rw [configure_eq added]
    exact .atDesk added
  | some weight =>
    cases call with
    | addComposer restriction weight => exact (addComposer_mirrors restriction weight).bind fun _ => .pure _
    | includeMarkers map weight => exact (includeMarkers_mirrors map weight).bind fun _ => .pure _
    | _ => cases added

/-- Using a coherent bench answers from its desk, changes nothing there and leaves the bench coherent. -/
def Tells (use : Use α) (answer : Desk → Except Failure α) : Prop :=
  ∀ bench : Bench, bench.IsCoherent → ∃ notes,
    outcome use bench = (answer bench.desk, ⟨bench.desk, notes⟩) ∧ IsCoherent ⟨bench.desk, notes⟩

namespace Tells

theorem pure (a : α) : Tells (pure a) fun _ => .ok a := fun bench coherent => ⟨bench.notes, rfl, coherent⟩

theorem desk (answer : Desk → Except Failure α) : Tells (do let bench ← get; liftM (answer bench.desk)) answer :=
  fun bench coherent => ⟨bench.notes, rfl, coherent⟩

theorem bind {use : Use α} {rest : α → Use β} {answer : Desk → Except Failure α} {further : α → Desk → Except Failure β}
    (first : Tells use answer) (others : ∀ a, Tells (rest a) (further a)) :
    Tells (use >>= rest) fun desk => answer desk >>= fun a => further a desk := by
  intro bench coherent
  obtain ⟨notes, found, coherent⟩ := first bench coherent
  rw [outcome_bind, found]
  dsimp only
  cases answer bench.desk with
  | error failure => exact ⟨notes, rfl, coherent⟩
  | ok a => exact others a ⟨bench.desk, notes⟩ coherent

theorem leaves {use : Use α} {answer : Desk → Except Failure α} (tells : Tells use answer)
    (coherent : bench.IsCoherent) :
    (outcome use bench).2.IsCoherent ∧ (outcome use bench).2.desk = bench.desk := by
  obtain ⟨notes, found, coherent⟩ := tells bench coherent
  rw [found]
  exact ⟨coherent, rfl⟩

theorem answers {use : Use α} {answer : Desk → Except Failure α} (tells : Tells use answer)
    (coherent : bench.IsCoherent) : (outcome use bench).1 = answer bench.desk := by
  obtain ⟨notes, found, -⟩ := tells bench coherent
  rw [found]

end Tells

theorem active_notes (coherent : bench.IsCoherent) : ∃ notes,
    outcome active bench = (.ok bench.desk.matcher.active, ⟨bench.desk, notes⟩) ∧
      notes.active = some bench.desk.matcher.active ∧ notes.members = .ofList bench.desk.matcher.active := by
  unfold active
  rw [outcome_bind, outcome_get]
  cases noted : bench.notes.active with
  | none => exact ⟨_, by simp only [noted, outcome_bind, outcome_set]; rfl, rfl, rfl⟩
  | some ids =>
    obtain ⟨rfl, members⟩ := coherent ids noted
    exact ⟨bench.notes, by simp only [noted]; rfl, noted, members⟩

theorem coherent_of_noted {desk : Desk} {notes : Notes} (noted : notes.active = some desk.matcher.active)
    (members : notes.members = .ofList desk.matcher.active) : IsCoherent ⟨desk, notes⟩ := by
  intro ids held
  cases noted.symm.trans held
  exact ⟨rfl, members⟩

theorem active_tells : Tells active fun desk => .ok desk.matcher.active := by
  intro bench coherent
  obtain ⟨notes, found, noted, members⟩ := active_notes coherent
  exact ⟨notes, found, coherent_of_noted noted members⟩

theorem scope_tells : Tells scope fun desk => .ok desk.matcher.scope := by
  intro bench coherent
  obtain ⟨notes, found, noted, members⟩ := active_notes coherent
  refine ⟨notes, ?_, coherent_of_noted noted members⟩
  unfold scope
  rw [outcome_bind, found]
  simp only [outcome_bind, outcome_get, outcome_pure, members]
  rfl

theorem countConstraints_tells : Tells countConstraints Desk.countConstraints :=
  scope_tells.bind fun scope => .desk fun desk => desk.matcher.countConstraintsIn scope desk.namer.taken

theorem objective_tells : Tells objective fun desk => desk.matcher.objective := .desk fun desk => desk.matcher.objective

theorem problem_tells : Tells problem Desk.problem :=
  scope_tells.bind fun scope => countConstraints_tells.bind fun counts => active_tells.bind fun ids =>
    .desk fun desk => desk.matcher.composeIn ids scope counts

theorem text_tells : Tells text fun desk => do return (← desk.problem).toText :=
  problem_tells.bind fun p => .pure p.toText

theorem solve_tells (registry : Registry) (backend timeLimit : Value) (world : World) :
    Tells (solve registry backend timeLimit world) fun desk => do
      let p ← desk.problem
      return desk.solveProgram desk.matcher.active p registry backend timeLimit world :=
  problem_tells.bind fun p => active_tells.bind fun ids =>
    .desk fun desk => .ok (desk.solveProgram ids p registry backend timeLimit world)

end Bench

def Action.call? : Action → Option Call
  | .configure call => some call
  | .ask _ => none

theorem Action.forall_configure {calls : List Call} {good : Call → Prop} (each : ∀ call ∈ calls, good call) :
    ∀ call, .configure call ∈ calls.map configure → good call := by
  intro call member
  obtain ⟨_, listed, ⟨⟩⟩ := List.mem_map.mp member
  exact each call listed

/-- What calls make of a desk, whether they succeed or fail. -/
def Desk.after (desk : Desk) (calls : List Call) : Desk := calls.foldl (fun desk call => (outcome call.run desk).2) desk

theorem Desk.after_cons {desk next : Desk} {call : Call} {answer : Answer} (gives : call.run.Gives desk answer next)
    (calls : List Call) : desk.after (call :: calls) = next.after calls := by
  rw [Desk.after, List.foldl_cons, show Stateful.outcome call.run desk = _ from gives]
  rfl

theorem Query.run_leaves (query : Query) {bench : Bench} (coherent : bench.IsCoherent) :
    (outcome query.run bench).2.IsCoherent ∧ (outcome query.run bench).2.desk = bench.desk := by
  cases query with
  | active => exact outcome_return Reply.ids _ ▸ Bench.active_tells.leaves coherent
  | objective => exact outcome_return Reply.weights _ ▸ Bench.objective_tells.leaves coherent
  | countConstraints => exact outcome_return Reply.rows _ ▸ Bench.countConstraints_tells.leaves coherent
  | problem => exact outcome_return Reply.program _ ▸ Bench.problem_tells.leaves coherent
  | text => exact outcome_return Reply.text _ ▸ Bench.text_tells.leaves coherent
  | solve => exact outcome_return Reply.run _ ▸ (Bench.solve_tells _ _ _ _).leaves coherent

/-- Every action leaves a coherent bench coherent, with what its call, if it is one, makes of the desk. -/
theorem Action.run_leaves (action : Action) {bench : Bench} (coherent : bench.IsCoherent) :
    (outcome action.run bench).2.IsCoherent ∧
      (outcome action.run bench).2.desk = bench.desk.after action.call?.toList := by
  cases action with
  | configure call => exact outcome_return Reply.answer _ ▸ (Bench.configure_mirrors call).leaves coherent
  | ask query => exact query.run_leaves coherent

theorem Action.fails_iff {call : Call} {bench : Bench} (coherent : bench.IsCoherent) {failure : Failure} {desk : Desk} :
    (∃ notes, outcome (configure call).run bench = (.error failure, ⟨desk, notes⟩)) ↔
      outcome call.run bench.desk = (.error failure, desk) := by
  obtain ⟨notes, found, -⟩ := Bench.configure_mirrors call bench coherent
  unfold Action.run
  constructor
  · rintro ⟨notes', failed⟩
    rcases outcome_bind_error.mp failed with failed | ⟨_, _, -, ⟨⟩⟩
    rw [found, Prod.mk.injEq, Bench.mk.injEq] at failed
    exact Prod.ext failed.1 failed.2.1
  · intro failed
    rw [failed] at found
    exact ⟨notes, outcome_bind_error.mpr (.inl found)⟩

theorem Action.succeeds_of_gives {call : Call} {bench : Bench} {answer : Answer} {next : Desk}
    (coherent : bench.IsCoherent) (gives : call.run.Gives bench.desk answer next) : ∃ notes,
      outcome (configure call).run bench = (.ok (.answer answer), ⟨next, notes⟩) ∧ Bench.IsCoherent ⟨next, notes⟩ := by
  obtain ⟨notes, found, coherent⟩ := Bench.configure_mirrors call bench coherent
  rw [show outcome call.run bench.desk = _ from gives] at found coherent
  exact ⟨notes, outcome_bind_ok.mpr ⟨answer, _, found, rfl⟩, coherent⟩

theorem Action.gives_of_succeeds {call : Call} {bench next : Bench} {reply : Reply} (coherent : bench.IsCoherent)
    (succeeded : outcome (configure call).run bench = (.ok reply, next)) :
    ∃ answer, call.run.Gives bench.desk answer next.desk := by
  obtain ⟨notes, found, -⟩ := Bench.configure_mirrors call bench coherent
  obtain ⟨answer, mid, answered, rest⟩ := outcome_bind_ok.mp succeeded
  rw [found, Prod.mk.injEq] at answered
  rw [outcome_pure, Prod.mk.injEq] at rest
  refine ⟨answer, Prod.ext answered.1 ?_⟩
  rw [← rest.2, ← answered.2]

/-- Actions come to their calls. -/
theorem Bench.after_leaves {bench : Bench} (coherent : bench.IsCoherent) (actions : List Action) :
    (bench.after actions).IsCoherent ∧
      (bench.after actions).desk = bench.desk.after (actions.filterMap Action.call?) := by
  induction actions generalizing bench with
  | nil => exact ⟨coherent, rfl⟩
  | cons action actions ih =>
    obtain ⟨coherent, first⟩ := action.run_leaves coherent
    obtain ⟨coherent, rest⟩ := ih coherent
    refine ⟨coherent, rest.trans ?_⟩
    rw [first]
    cases action <;> rfl

end Matchmaking
