import Matchmaking.Proofs.Matcher.Closure
import Matchmaking.Proofs.Matcher.Totals

/-! Which composers a matcher has, and what they add up to in its objective, whatever has been configured and asked
before. -/
namespace Matchmaking

open Stateful

namespace Matcher

/-- The composers of restrictions with given weights, over the views that the restrictions leave; a view without
tuples makes none. -/
def composersOf (offered : List (Keyed Value × Value)) (views : List View) : List Composer :=
  ((offered.zip views).filter fun (_, view) => !view.isEmpty).map fun (offer, view) => ⟨offer.2, view⟩

theorem composersOf_of_over {space : View} (offered : List (Keyed Value × Value)) {added : List (List Composer)}
    (each : List.Forall₂ (fun offer added => ∃ view, space.subset offer.1 = .ok view ∧
      ComposersOver view offer.2 added) offered added) : ∃ views,
      List.Forall₂ (fun offer view => space.subset offer.1 = .ok view) offered views ∧
        added.flatten = composersOf offered views := by
  induction each with
  | nil => exact ⟨[], .nil, rfl⟩
  | @cons offer added offered others first _ ih =>
    obtain ⟨view, narrowed, made⟩ := first
    obtain ⟨views, related, flat⟩ := ih
    refine ⟨view :: views, .cons narrowed related, ?_⟩
    rw [List.flatten_cons, flat]
    unfold ComposersOver at made
    unfold composersOf
    split at made
    · simp [*]
    · simp [made.2, *]

end Matcher

namespace Call

open Matcher

/-- The restrictions whose tuples a call lets be selected, with their weights. -/
def offers : Call → Except Failure (List (Keyed Value × Value))
  | .addComposer restriction weight => .ok [(restriction, weight)]
  | .includeMarkers map weight => do return (← map.pairs).map fun pair => (restrictionOf pair, weight)
  | _ => .ok []

/-- A call that succeeds adds the composers that it offers, behind those that there are. -/
theorem run_offers {call : Call} {desk next : Desk} {answer : Answer} (gives : call.run.Gives desk answer next) :
    ∃ offered views, call.offers = .ok offered ∧
      List.Forall₂ (fun offer view => desk.matcher.space.subset offer.1 = .ok view) offered views ∧
      next.matcher.composers = desk.matcher.composers ++ composersOf offered views := by
  cases weighed : call.weight? with
  | none =>
    have same := run_composers weighed desk
    rw [show outcome call.run desk = _ from gives] at same
    refine ⟨[], [], ?_, .nil, same.trans (List.append_nil _).symm⟩
    cases call with
    | addComposer | includeMarkers => cases weighed
    | _ => rfl
  | some weight =>
    cases call with
    | addComposer restriction weight =>
      simp only [run, Setup.gives_bind, Setup.gives_pure] at gives
      obtain ⟨_, mid, step, -, rfl⟩ := gives
      obtain ⟨added, grown, view, narrowed, made⟩ := addComposer_gives step
      obtain ⟨views, related, flat⟩ := composersOf_of_over [(restriction, weight)] (.cons ⟨view, narrowed, made⟩ .nil)
      rw [List.flatten_singleton] at flat
      exact ⟨_, views, rfl, related, by rw [grown, ← flat]; rfl⟩
    | includeMarkers map weight =>
      simp only [run, Setup.gives_bind, Setup.gives_pure] at gives
      obtain ⟨_, mid, step, -, rfl⟩ := gives
      obtain ⟨pairs, added, read, grown, each⟩ := includeMarkers_gives step
      obtain ⟨views, related, flat⟩ := composersOf_of_over
        (pairs.map fun pair => (restrictionOf pair, weight)) (List.forall₂_map_left_iff.mpr each)
      exact ⟨_, views, by simp [offers, read], related, by rw [grown, ← flat]; rfl⟩
    | _ => cases weighed

end Call

namespace Bench

/-- However it is used, a matcher keeps to views of the space that it has been built over. -/
theorem Reached.stands {collections : Keyed Value} {backend timeLimit : Value} {start : Matcher}
    {actions : List Action} {bench : Bench} (mapping : collections.IsMapping)
    (built : Matcher.build collections backend timeLimit = .ok start) (reached : Reached start actions bench) :
    ∃ table : Table, table.Sound ∧ bench.IsCoherent ∧
      bench.desk.matcher.Stands table (fun _ => True) fun _ => True := by
  obtain ⟨table, sound, fresh⟩ := Matcher.stands_of_build mapping built
  exact ⟨table, sound, reached.keeps (fresh _ _) fun call _ desk held =>
    call.run_stands (by cases call <;> simp [Call.Counts]) (fun _ _ _ _ _ _ _ _ => trivial) held⟩

/-- Whatever has been configured and asked before, as long as all composers that have been accepted have whole weights,
the objective gives every active identifier the sum of what each composer hands it: its weight or, if that is a row,
the one whose turn it is at the identifier's position among those of the composer's own view. Without composers every
identifier of the space gets one. No other identifiers have a weight. A call that succeeds adds its composers behind
the others, and what these hand out is not affected. -/
theorem objective_accumulates {collections : Keyed Value} {backend timeLimit : Value} {start : Matcher}
    {actions : List Action} {bench : Bench} (mapping : collections.IsMapping)
    (built : Matcher.build collections backend timeLimit = .ok start) (reached : Reached start actions bench)
    (whole : ∀ composer ∈ bench.desk.matcher.composers, Weight.IsWhole composer.weight) :
    (bench.desk.matcher.composers = [] →
      (outcome objective bench).1 = .ok (start.space.ids.map fun id => (.text id, .int 1))) ∧
    (bench.desk.matcher.composers ≠ [] → ∃ ids : List String, (outcome active bench).1 = .ok ids ∧ ids.Nodup ∧
      (∀ id, id ∈ ids ↔ ∃ composer ∈ bench.desk.matcher.composers, id ∈ composer.view.ids) ∧
      (outcome objective bench).1 = .ok (ids.map fun id => (.text id, .int (bench.desk.matcher.handed id)))) ∧
    (∀ call reply next, outcome (Action.configure call).run bench = (.ok reply, next) → ∃ offered views,
      call.offers = .ok offered ∧
      List.Forall₂ (fun offer view => start.space.subset offer.1 = .ok view) offered views ∧
      next.desk.matcher.composers = bench.desk.matcher.composers ++ Matcher.composersOf offered views ∧
      ∀ id, next.desk.matcher.handed id =
        bench.desk.matcher.handed id + ((Matcher.composersOf offered views).map (·.share id)).sum) := by
  obtain ⟨table, sound, coherent, stands⟩ := reached.stands mapping built
  have space := reached.space.2
  have objective := (objective_tells.answers coherent).trans (stands.objective_eq sound whole)
  refine ⟨fun none => ?_, fun some => ?_, fun call reply next succeeded => ?_⟩
  · rw [objective, Matcher.active, none, space]
    rfl
  · have filled : ¬bench.desk.matcher.composers.isEmpty = true := by simpa using some
    refine ⟨_, active_tells.answers coherent, stands.nodup_active sound, fun id => ?_, ?_⟩
    · rw [Matcher.active, if_neg filled, Text.mem_distinct, List.mem_flatMap]
    · simp only [objective, if_neg filled]
  · obtain ⟨answer, gives⟩ := Action.gives_of_succeeds coherent succeeded
    obtain ⟨offered, views, offers, related, composers⟩ := Call.run_offers gives
    rw [space] at related
    refine ⟨offered, views, offers, related, composers, fun id => ?_⟩
    rw [Matcher.handed, composers, List.map_append, List.sum_append, Matcher.handed]

/-- Composers that overlap in a tuple, of which one hands out two weights in turn. -/
theorem objective_accumulates_of_overlap : ∃ start bench,
    Matcher.build Matcher.grid .null .null = .ok start ∧ Reached start (Matcher.gridCalls.map .configure) bench ∧
    (outcome active bench).1 = .ok ["v0x0", "v0x1", "v0x2", "v1x0"] ∧
    (outcome objective bench).1 = .ok
      [(.text "v0x0", .int 7), (.text "v0x1", .int (-3)), (.text "v0x2", .int 2), (.text "v1x0", .int 5)] := by
  obtain ⟨table, bench, built, -, made, reached, coherent, -⟩ := exists_grid
  obtain ⟨-, some, -⟩ := objective_accumulates Matcher.grid_isMapping built reached made.whole
  obtain ⟨ids, found, -, -, objective⟩ := some made.filled
  have listed := active_tells.answers coherent
  cases found.symm.trans listed
  rw [made.weights] at objective
  rw [made.active] at listed
  exact ⟨_, bench, built, reached, listed, objective⟩

end Bench

end Matchmaking
