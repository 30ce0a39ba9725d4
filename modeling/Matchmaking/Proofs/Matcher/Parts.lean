import Matchmaking.Proofs.Matcher.Sharing

/-! The parts of a call, one restriction after the other. Each part adds a row or a composer for its
restriction, or nothing if there are no tuples in it, and a part that fails changes nothing. -/
namespace Matchmaking

open Stateful

namespace Setup

variable {α β : Type}

/-- A step that changes nothing when it fails. -/
def Atomic (step : Setup α) : Prop := ∀ desk failure next, outcome step desk = (.error failure, next) → next = desk

namespace Atomic

theorem of_succeeds {step : Setup α} (succeeds : ∀ desk, ∃ a next, step.Gives desk a next) : Atomic step := by
  intro desk failure next failed
  obtain ⟨a, last, gives⟩ := succeeds desk
  cases gives.symm.trans failed

theorem throw (failure : Failure) : Atomic (throw failure : Setup α) := by
  intro desk other next failed
  cases failed
  rfl

theorem get_bind {rest : Desk → Setup α} (others : ∀ desk, Atomic (rest desk)) : Atomic (MonadState.get >>= rest) :=
  fun desk => others desk desk

theorem lift_bind {found : Except Failure β} {rest : β → Setup α} (others : ∀ b, Atomic (rest b)) :
    Atomic (liftM found >>= rest) := by
  intro desk failure next failed
  rcases outcome_bind_error.mp failed with here | ⟨b, mid, known, later⟩
  · cases here
    rfl
  · cases known
    exact others b _ failure next later

/-- What is made of an answer cannot fail. -/
theorem bind_return {step : Setup α} (first : Atomic step) (f : α → β) : Atomic (do return f (← step)) := by
  intro desk failure next failed
  rcases outcome_bind_error.mp failed with here | ⟨a, mid, -, ⟨⟩⟩
  exact first desk failure next here

end Atomic

end Setup

/-- A desk with more rows, under names that have been taken for them, and with more composers. -/
structure Desk.Grows (desk : Desk) (rows : List Constraint) (composers : List Composer) (next : Desk) : Prop where
  matcher : next.matcher = (desk.matcher.withRows rows).withComposers composers
  taken : next.namer.taken.keys = desk.namer.taken.keys ++ rows.map (·.name)

namespace Desk.Grows

variable {desk mid next : Desk} {rows later : List Constraint} {composers others : List Composer}

theorem none (desk : Desk) : desk.Grows [] [] desk where
  matcher := by rw [Matcher.withRows_nil, Matcher.withComposers_nil]
  taken := by simp

theorem trans (first : desk.Grows rows composers mid) (rest : mid.Grows later others next) :
    desk.Grows (rows ++ later) (composers ++ others) next where
  matcher := by
    rw [rest.matcher, first.matcher]
    simp [Matcher.withRows, Matcher.withComposers]
  taken := by rw [rest.taken, first.taken, List.map_append, List.append_assoc]

end Desk.Grows

namespace Matcher

open Setup

variable {desk next : Desk} {restriction : Keyed Value} {name weight target : Value} {op : Operator} {parts : Nat}
  {part : Keyed Value × Nat}

theorem addRow_atomic (c : Constraint) : Atomic (addRow c) :=
  .get_bind fun _ => .lift_bind fun _ => .lift_bind fun _ => .of_succeeds fun _ => ⟨_, _, rfl⟩

theorem requirePart_atomic : Atomic (requirePart op target name parts part) := by
  refine .get_bind fun desk => .lift_bind fun view => ?_
  split
  · exact .of_succeeds fun _ => ⟨_, _, rfl⟩
  · refine .lift_bind fun named => ?_
    cases target with
    | null => exact .lift_bind fun _ => (addRow_atomic _).bind_return some
    | _ => exact (addRow_atomic _).bind_return some

/-- What has been checked is enlisted in every case. -/
theorem enlist_succeeds (composer : Composer) (desk : Desk) :
    ∃ answer next, (enlist composer).Gives desk answer next := by
  unfold enlist
  cases composer.view.isEmpty with
  | true => exact ⟨none, desk, rfl⟩
  | false => exact ⟨_, _, rfl⟩

theorem addComposer_atomic : Atomic (addComposer restriction weight) := by
  intro desk failure next failed
  rcases outcome_bind_error.mp failed with offered | ⟨composer, mid, -, enlisted⟩
  · rw [outcome_offer] at offered
    exact (congrArg Prod.snd offered).symm
  · obtain ⟨answer, last, gives⟩ := enlist_succeeds composer mid
    cases gives.symm.trans enlisted

theorem addRow_grows {c row : Constraint} (gives : (addRow c).Gives desk row next) :
    desk.Grows [row] [] next ∧ ∃ s, row.name = .text s ∧ (c.name.truth = true → c.name = .text s) := by
  simp only [addRow, Setup.gives_bind, Setup.gives_get, Setup.gives_lift, Setup.gives_set, Setup.gives_pure, and_assoc,
    exists_and_left, exists_eq_left] at gives
  obtain ⟨_, -, ⟨added, namer⟩, naming, rfl, -, rfl⟩ := gives
  obtain ⟨s, named, given, -⟩ := nameRow_gives naming
  refine ⟨⟨?_, ?_⟩, s, named, fun own => ?_⟩
  · exact (withComposers_nil _).symm
  · rw [given.keys, List.map_singleton, named]
  · rw [nameRow, if_pos own] at naming
    obtain ⟨_, -, naming⟩ := bind_eq_ok.mp naming
    cases naming
    exact named

theorem requirePart_grows {answer : Option Constraint}
    (gives : (requirePart op target name parts part).Gives desk answer next) :
    desk.Grows answer.toList [] next ∧ ∀ row ∈ answer.toList, ∃ given s, partName name parts part.2 = .ok given ∧
      row.name = .text s ∧ (given.truth = true → given = .text s) := by
  obtain ⟨view, -, made⟩ := requirePart_cases gives
  split at made
  · obtain ⟨rfl, rfl⟩ := made
    exact ⟨.none next, by simp⟩
  · obtain ⟨given, row, called, rfl, step⟩ := made
    obtain ⟨grows, s, named, own⟩ := addRow_grows step
    refine ⟨grows, fun other member => ?_⟩
    rw [List.mem_singleton.mp member]
    exact ⟨given, s, called, named, own⟩

theorem addComposer_grows {answer : Option Composer}
    (gives : (addComposer restriction weight).Gives desk answer next) : desk.Grows [] answer.toList next := by
  obtain ⟨composer, mid, offered, enlisted⟩ := Setup.gives_bind.mp gives
  obtain ⟨-, -, rfl⟩ := offer_gives.mp offered
  obtain ⟨-, rfl⟩ := enlist_gives enlisted
  exact ⟨by rw [withRows_nil], by simp⟩

theorem exclude_eq (restriction : Keyed Value) (name : Value) (place : Nat) :
    exclude restriction name = requirePart .eq (.int 0) name 1 (restriction, place) := by
  have named : partName name 1 place = .ok name := by
    simp [partName]
  unfold exclude requirePart
  simp only [named]
  rfl

end Matcher

/-- One restriction of a call, with what is added for it. -/
inductive Part where
  | row (op : Operator) (restriction : Keyed Value) (target name : Value) (parts place : Nat)
  | composer (restriction : Keyed Value) (weight : Value)

structure Added where
  rows : List Constraint
  composers : List Composer

namespace Part

def run : Part → Setup Added
  | .row op restriction target name parts place => do
    return ⟨(← Matcher.requirePart op target name parts (restriction, place)).toList, []⟩
  | .composer restriction weight => do return ⟨[], (← Matcher.addComposer restriction weight).toList⟩

def restriction : Part → Keyed Value
  | .row _ restriction .. => restriction
  | .composer restriction _ => restriction

def named : Part → Except Failure Value
  | .row _ _ _ name parts place => Matcher.partName name parts place
  | .composer .. => .ok .null

theorem run_grows {part : Part} {desk next : Desk} {added : Added} (gives : part.run.Gives desk added next) :
    desk.Grows added.rows added.composers next ∧ ∀ row ∈ added.rows, ∃ given s, part.named = .ok given ∧
      row.name = .text s ∧ (given.truth = true → given = .text s) := by
  cases part with
  | row =>
    simp only [run, Setup.gives_bind, Setup.gives_pure] at gives
    obtain ⟨answer, mid, made, rfl, rfl⟩ := gives
    obtain ⟨grows, names⟩ := Matcher.requirePart_grows made
    exact ⟨grows, names⟩
  | composer =>
    simp only [run, Setup.gives_bind, Setup.gives_pure] at gives
    obtain ⟨answer, mid, made, rfl, rfl⟩ := gives
    exact ⟨Matcher.addComposer_grows made, by simp⟩

theorem mapM_grows {parts : List Part} {desk next : Desk} {added : List Added}
    (gives : (parts.mapM run).Gives desk added next) :
    desk.Grows (added.flatMap (·.rows)) (added.flatMap (·.composers)) next := by
  induction parts generalizing desk added with
  | nil =>
    obtain ⟨rfl, rfl⟩ := Setup.gives_pure.mp gives
    exact .none _
  | cons part rest ih =>
    rw [List.mapM_cons] at gives
    simp only [Setup.gives_bind, Setup.gives_pure] at gives
    obtain ⟨first, mid, made, others, last, more, rfl, rfl⟩ := gives
    exact (run_grows made).1.trans (ih more)

theorem run_atomic (part : Part) : Setup.Atomic part.run := by
  cases part with
  | row => exact Matcher.requirePart_atomic.bind_return fun row => Added.mk row.toList []
  | composer => exact Matcher.addComposer_atomic.bind_return fun composer => Added.mk [] composer.toList

end Part

namespace Call

def parts? : Call → Option (Except Failure (List Part))
  | .addComposer restriction weight => some (.ok [.composer restriction weight])
  | .exclude restriction name => some (.ok [.row .eq restriction (.int 0) name 1 0])
  | .excludeMarkers map => some do
    return (← map.pairs).map fun pair => .row .eq (Matcher.restrictionOf pair) (.int 0) .null 1 0
  | .includeMarkers map weight => some do
    return (← map.pairs).map fun pair => .composer (Matcher.restrictionOf pair) weight
  | .require op restriction target name =>
    let all := Matcher.expand restriction
    some (.ok (all.zipIdx.map fun part => .row op part.1 target name all.length part.2))
  | _ => none

theorem mapM_rows {α : Type} (step : α → Setup (Option Constraint)) (part : α → Part)
    (each : ∀ x, (part x).run = do return ⟨(← step x).toList, []⟩) (xs : List α) :
    (do return .rows ((← xs.mapM step).filterMap id) : Setup Answer) =
      do return .rows ((← (xs.map part).mapM Part.run).flatMap (·.rows)) := by
  have runs : Part.run ∘ part = fun x => do return ⟨(← step x).toList, []⟩ := funext each
  rw [List.mapM_map, runs, mapM_return fun row : Option Constraint => Added.mk row.toList []]
  simp [List.flatMap_map, List.filterMap_eq_flatMap_toList]

theorem mapM_composers {α : Type} (step : α → Setup (Option Composer)) (part : α → Part)
    (each : ∀ x, (part x).run = do return ⟨[], (← step x).toList⟩) (xs : List α) :
    (do return .composers ((← xs.mapM step).filterMap id) : Setup Answer) =
      do return .composers ((← (xs.map part).mapM Part.run).flatMap (·.composers)) := by
  have runs : Part.run ∘ part = fun x => do return ⟨[], (← step x).toList⟩ := funext each
  rw [List.mapM_map, runs, mapM_return fun composer : Option Composer => Added.mk [] composer.toList]
  simp [List.flatMap_map, List.filterMap_eq_flatMap_toList]

/-- A call comes to its parts, made one after the other. -/
theorem run_parts {call : Call} {found : Except Failure (List Part)} (made : call.parts? = some found) :
    ∃ answer : List Added → Answer, call.run = do
      let parts ← found
      return answer (← parts.mapM Part.run) := by
  cases call with
  | addComposer restriction weight =>
    cases made
    refine ⟨fun added => .composer (added.flatMap (·.composers)).head?, ?_⟩
    simp [run, Part.run, liftM_ok]
  | exclude restriction name =>
    cases made
    refine ⟨fun added => .row (added.flatMap (·.rows)).head?, ?_⟩
    simp [run, Part.run, liftM_ok, Matcher.exclude_eq restriction name 0]
  | excludeMarkers map =>
    cases made
    refine ⟨fun added => .rows (added.flatMap (·.rows)), ?_⟩
    have rows := mapM_rows (fun pair => Matcher.exclude (Matcher.restrictionOf pair) .null)
      (fun pair => .row .eq (Matcher.restrictionOf pair) (.int 0) .null 1 0)
      fun pair => by rw [Matcher.exclude_eq _ _ 0]; rfl
    simp only [run, Matcher.excludeMarkers, bind_assoc, pure_bind, rows]
    cases map.pairs <;> rfl
  | includeMarkers map weight =>
    cases made
    refine ⟨fun added => .composers (added.flatMap (·.composers)), ?_⟩
    have composers := mapM_composers (fun pair => Matcher.addComposer (Matcher.restrictionOf pair) weight)
      (fun pair => .composer (Matcher.restrictionOf pair) weight) fun _ => rfl
    simp only [run, Matcher.includeMarkers, bind_assoc, pure_bind, composers]
    cases map.pairs <;> rfl
  | require op restriction target name =>
    cases made
    refine ⟨fun added => .rows (added.flatMap (·.rows)), ?_⟩
    simp only [run, Matcher.require, bind_assoc, pure_bind]
    exact mapM_rows _ _ (fun _ => rfl) _
  | addRow | setCount => cases made

end Call

end Matchmaking
