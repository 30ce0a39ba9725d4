import Matchmaking.Proofs.Matcher.Setup
import Matchmaking.Proofs.Space.RoundTrip

/-! What the configuration steps of a matcher leave behind when they succeed: the matcher as it
was, with rows or composers added at the end or with one count rule replaced. -/
namespace Matchmaking

theorem View.length_eq_ok {view : View} {size : Nat} (counted : view.length = .ok size) : size = view.size := by
  rw [length, Value.counted] at counted
  split at counted <;> cases counted
  rfl

namespace Matcher

open Stateful

def withRows (m : Matcher) (added : List Constraint) : Matcher :=
  { m with constraints := m.constraints ++ added }

def withComposers (m : Matcher) (added : List Composer) : Matcher :=
  { m with composers := m.composers ++ added }

/-- The rows added for a view: one over its tuples, if it has any. -/
def RowsOver (view : View) (op : Operator) (target : Value) (added : List Constraint) : Prop :=
  if view.isEmpty then added = [] else ∃ name, added = [rowOf view op target name]

/-- The composers added for a view: one of its tuples, if it has any, with a checked weight. -/
def ComposersOver (view : View) (weight : Value) (added : List Composer) : Prop :=
  if view.isEmpty then added = [] else Weight.check weight = .ok weight ∧ added = [⟨weight, view⟩]

theorem build_succeeds {collections : Keyed Value} (backend timeLimit : Value) (different : ∀ given ∈ collections.inTurn [],
    ∃ items, given.2.items = .ok items ∧ Value.Different items) :
    ∃ start, build collections backend timeLimit = .ok start := by
  have each : ∀ given ∈ collections.inTurn [], ∃ entry : Value × Value,
      (do return (given.1, .list (← given.2.items)) : Except Failure _) = .ok entry ∧
        entry.2.isStream = false ∧ ∃ items, entry.2.items = .ok items ∧ Value.Different items := by
    intro given member
    obtain ⟨items, read, different⟩ := different given member
    exact ⟨(given.1, .list items), by simp [read], rfl, items, rfl, different⟩
  obtain ⟨listed, related⟩ := exists_forall₂ each
  have read := mapM_eq_ok.mpr (related.imp fun _ _ both => both.1)
  have lists : ∀ entry ∈ listed, entry.2.isStream = false ∧ ∃ items, entry.2.items = .ok items ∧
      Value.Different items := by
    intro entry member
    obtain ⟨_, -, -, list⟩ := exists_of_mem_right related member
    exact list
  obtain ⟨table, built⟩ := Table.build_ok fun entry member => by
    rw [Keyed.inTurn_of_lasting fun entry member => (lists entry member).1] at member
    exact (lists entry member).2
  exact ⟨{ space := .whole table, backend, timeLimit },
    bind_eq_ok.mpr ⟨listed, read, bind_eq_ok.mpr ⟨table, built, rfl⟩⟩⟩

/-- What is built is a matcher without rules over the whole of the collections. -/
theorem build_eq_ok {collections : Keyed Value} {backend timeLimit : Value} {start : Matcher}
    (mapping : collections.IsMapping) (built : build collections backend timeLimit = .ok start) :
    ∃ table : Table, table.Sound ∧ List.Forall₂ (fun given entry => entry.1 = given.1 ∧
      given.2.items = .ok entry.2.keys) (collections.inTurn []) table.collections ∧
      start = { space := .whole table, backend, timeLimit } := by
  obtain ⟨listed, read, built⟩ := bind_eq_ok.mp built
  obtain ⟨table, enrolled, made⟩ := bind_eq_ok.mp built
  cases made
  have lists : List.Forall₂ (fun (given entry : Value × Value) => entry.1 = given.1 ∧
      given.2.items = entry.2.items ∧ entry.2.isStream = false) (collections.inTurn []) listed := by
    refine (mapM_eq_ok.mp read).imp fun given entry step => ?_
    obtain ⟨items, found, step⟩ := bind_eq_ok.mp step
    cases step
    exact ⟨rfl, found, rfl⟩
  have keys := Keyed.keys_eq_of_forall₂ lists fun _ _ step => step.1.symm
  have sound := Table.sound_of_build (by rwa [Keyed.IsMapping, ← keys, Keyed.keys_inTurn]) enrolled
  have rosters := Table.build_eq_ok enrolled
  rw [Keyed.inTurn_of_lasting fun entry member => by
    obtain ⟨_, -, -, -, lasting⟩ := exists_of_mem_right lists member
    exact lasting] at rosters
  refine ⟨table, sound, (forall₂_comp lists rosters).imp fun given entry step => ?_, rfl⟩
  obtain ⟨_, first, second⟩ := step
  exact ⟨second.1.trans first.1, first.2.1.trans second.2.1⟩

variable {desk next : Desk} {restriction : Keyed Value} {name weight target padding : Value}

/-- A row gets a name and stays as it is otherwise, and the namer keeps its stem. -/
theorem nameRow_renames {namer next : Namer} {c row : Constraint} (naming : nameRow namer c = .ok (row, next)) :
    (∃ name, row = { c with name }) ∧ next.stem = namer.stem := by
  unfold nameRow at naming
  split at naming
  · obtain ⟨⟨s, later⟩, claims, naming⟩ := bind_eq_ok.mp naming
    cases naming
    obtain ⟨_, -, free⟩ := bind_eq_ok.mp claims
    split at free <;> cases free
    exact ⟨⟨_, rfl⟩, rfl⟩
  · cases naming
    exact ⟨⟨_, rfl⟩, rfl⟩

theorem addRow_gives {c row : Constraint} (gives : (addRow c).Gives desk row next) :
    checkVariables desk.matcher.space c.unknowns = .ok () ∧ (∃ name, row = { c with name }) ∧
      next.matcher = desk.matcher.withRows [row] := by
  simp only [addRow, Setup.gives_bind, Setup.gives_get, Setup.gives_lift, Setup.gives_set,
    Setup.gives_pure, and_assoc, exists_and_left, exists_eq_left] at gives
  obtain ⟨_, checked, ⟨named, namer⟩, naming, rfl, -, rfl⟩ := gives
  exact ⟨checked, (nameRow_renames naming).1, rfl⟩

theorem addRow_rowOf_gives {view : View} {op : Operator} {row : Constraint}
    (gives : (addRow (rowOf view op target name)).Gives desk row next) :
    ∃ name, next.matcher = desk.matcher.withRows [rowOf view op target name] := by
  obtain ⟨-, ⟨given, rfl⟩, added⟩ := addRow_gives gives
  exact ⟨given, added⟩

theorem exclude_gives {answer : Option Constraint} (gives : (exclude restriction name).Gives desk answer next) :
    ∃ added, next.matcher = desk.matcher.withRows added ∧
      ∃ view, desk.matcher.space.subset restriction = .ok view ∧ RowsOver view .eq (.int 0) added := by
  simp only [exclude, Setup.gives_bind, Setup.gives_get, Setup.gives_lift, and_assoc, exists_and_left,
    exists_eq_left] at gives
  obtain ⟨view, narrowed, gives⟩ := gives
  unfold RowsOver
  split at gives
  · obtain ⟨-, rfl⟩ := Setup.gives_pure.mp gives
    exact ⟨[], by simp [withRows], view, narrowed, by simp [*]⟩
  · obtain ⟨row, mid, step, gives⟩ := Setup.gives_bind.mp gives
    obtain ⟨-, rfl⟩ := Setup.gives_pure.mp gives
    obtain ⟨name, added⟩ := addRow_rowOf_gives step
    exact ⟨_, added, view, narrowed, by simp [*]⟩

/-- The target of a row that is asked for: its own, or else the number of its tuples. -/
def targetOf (target : Value) (view : View) : Value :=
  match target with
  | .null => .int view.size
  | target => target

/-- A part of a call adds one row over its tuples, if it has any, under the name that is meant for it. -/
theorem requirePart_cases {op : Operator} {parts : Nat} {part : Keyed Value × Nat} {answer : Option Constraint}
    (gives : (requirePart op target name parts part).Gives desk answer next) :
    ∃ view, desk.matcher.space.subset part.1 = .ok view ∧
      if view.isEmpty then answer = none ∧ next = desk
      else ∃ given row, partName name parts part.2 = .ok given ∧ answer = some row ∧
        (addRow (rowOf view op (targetOf target view) given)).Gives desk row next := by
  simp only [requirePart, Setup.gives_bind, Setup.gives_get, Setup.gives_lift, and_assoc, exists_and_left,
    exists_eq_left] at gives
  obtain ⟨view, narrowed, gives⟩ := gives
  refine ⟨view, narrowed, ?_⟩
  split at gives
  · rwa [if_pos ‹_›, ← Setup.gives_pure]
  · rw [if_neg ‹_›]
    cases target with
    | null =>
      simp only [Setup.gives_bind, Setup.gives_lift, Setup.gives_pure, and_assoc, exists_and_left,
        exists_eq_left] at gives
      obtain ⟨given, called, size, counted, row, mid, step, answered, rfl⟩ := gives
      rw [View.length_eq_ok counted] at step
      exact ⟨given, row, called, answered, step⟩
    | _ =>
      simp only [Setup.gives_bind, Setup.gives_lift, Setup.gives_pure, and_assoc, exists_and_left,
        exists_eq_left] at gives
      obtain ⟨given, called, row, mid, step, answered, rfl⟩ := gives
      exact ⟨given, row, called, answered, step⟩

theorem requirePart_gives {op : Operator} {parts : Nat} {part : Keyed Value × Nat}
    {answer : Option Constraint} (gives : (requirePart op target name parts part).Gives desk answer next) :
    ∃ added, next.matcher = desk.matcher.withRows added ∧
      ∃ view, desk.matcher.space.subset part.1 = .ok view ∧ RowsOver view op (targetOf target view) added := by
  obtain ⟨view, narrowed, made⟩ := requirePart_cases gives
  unfold RowsOver
  split at made
  · obtain ⟨-, rfl⟩ := made
    exact ⟨[], by simp [withRows], view, narrowed, by simp [*]⟩
  · obtain ⟨given, row, -, -, step⟩ := made
    obtain ⟨name, added⟩ := addRow_rowOf_gives step
    exact ⟨_, added, view, narrowed, by simp [*]⟩

theorem check_eq_ok {weight checked : Value} (check : Weight.check weight = .ok checked) : checked = weight := by
  unfold Weight.check at check
  split at check
  · obtain ⟨row, -, check⟩ := bind_eq_ok.mp check
    split at check
    · exact (Except.ok.inj check).symm
    · cases check
  · split at check
    · exact (Except.ok.inj check).symm
    · exact (Except.ok.inj check).symm
    · exact (Except.ok.inj check).symm
    · cases check

theorem outcome_offer (restriction : Keyed Value) (weight : Value) (desk : Desk) :
    outcome (offer restriction weight) desk =
      (do return ⟨← Weight.check weight, ← desk.matcher.space.subset restriction⟩, desk) := by
  rw [offer, outcome_bind, outcome_lift]
  cases Weight.check weight with
  | error failure => rfl
  | ok weight =>
    simp only [outcome_bind, outcome_get, outcome_lift, ok_bind]
    cases desk.matcher.space.subset restriction <;> rfl

theorem offer_gives {composer : Composer} : (offer restriction weight).Gives desk composer next ↔
    Weight.check weight = .ok composer.weight ∧ desk.matcher.space.subset restriction = .ok composer.view ∧
      next = desk := by
  simp only [offer, Setup.gives_bind, Setup.gives_get, Setup.gives_lift, Setup.gives_pure, and_assoc,
    exists_and_left, exists_eq_left]
  constructor
  · rintro ⟨w, checked, view, narrowed, rfl, rfl⟩
    exact ⟨checked, narrowed, rfl⟩
  · rintro ⟨checked, narrowed, rfl⟩
    exact ⟨_, checked, _, narrowed, rfl, rfl⟩

/-- A composer joins the others if it has tuples, and nothing else changes. -/
theorem enlist_gives {composer : Composer} {answer : Option Composer}
    (gives : (enlist composer).Gives desk answer next) :
    answer = (if composer.view.isEmpty then none else some composer) ∧
      next = { desk with matcher := desk.matcher.withComposers answer.toList } := by
  unfold enlist at gives
  split at gives
  · obtain ⟨rfl, rfl⟩ := Setup.gives_pure.mp gives
    simp [withComposers, *]
  · simp only [Setup.gives_bind, Setup.gives_modify, Setup.gives_pure] at gives
    obtain ⟨_, _, rfl, rfl, rfl⟩ := gives
    simp [withComposers, *]

theorem addComposer_gives {answer : Option Composer}
    (gives : (addComposer restriction weight).Gives desk answer next) :
    ∃ added, next.matcher = desk.matcher.withComposers added ∧
      ∃ view, desk.matcher.space.subset restriction = .ok view ∧ ComposersOver view weight added := by
  obtain ⟨composer, mid, offered, enlisted⟩ := Setup.gives_bind.mp gives
  obtain ⟨checked, narrowed, rfl⟩ := offer_gives.mp offered
  obtain ⟨answered, grown⟩ := enlist_gives enlisted
  have same := check_eq_ok checked
  refine ⟨answer.toList, congrArg Desk.matcher grown, composer.view, narrowed, ?_⟩
  rw [answered]
  unfold ComposersOver
  split
  · rfl
  · rw [← same]
    exact ⟨same.symm ▸ checked, rfl⟩

theorem setCount_gives {collection count : Value} {rule : Count}
    (gives : (setCount collection count padding).Gives desk rule next) :
    desk.matcher.space.table.hasName collection = .ok true ∧ Count.read count = .ok rule ∧
      ∃ p, padding.readInt = .ok p ∧
        next.matcher = { desk.matcher with counts := desk.matcher.counts.put collection (rule, p) } := by
  simp only [setCount, Setup.gives_bind, Setup.gives_get, Setup.gives_lift, and_assoc, exists_and_left,
    exists_eq_left] at gives
  obtain ⟨known, named, gives⟩ := gives
  split at gives
  · simp only [Setup.gives_bind, Setup.gives_lift, Setup.gives_set, Setup.gives_pure, and_assoc,
      exists_and_left, exists_eq_left] at gives
    rename_i yes
    obtain ⟨rule, read, p, padded, rfl, _, rfl⟩ := gives
    exact ⟨yes ▸ named, read, p, padded, rfl⟩
  · exact absurd gives Setup.gives_throw

/-- A list of steps each of which adds something adds all that they add, in order. -/
theorem mapM_gives {α β γ : Type} (adds : View → α → List γ → Prop) {grow : Matcher → List γ → Matcher}
    (none : ∀ m, grow m [] = m) (more : ∀ m first rest, grow (grow m first) rest = grow m (first ++ rest))
    (space : ∀ m added, (grow m added).space = m.space) {step : α → Setup β}
    (each : ∀ x desk answer next, (step x).Gives desk answer next →
      ∃ added, next.matcher = grow desk.matcher added ∧ adds desk.matcher.space x added)
    {xs : List α} {answers : List β} (gives : (xs.mapM step).Gives desk answers next) :
    ∃ added, next.matcher = grow desk.matcher added.flatten ∧
      List.Forall₂ (adds desk.matcher.space) xs added := by
  induction xs generalizing desk answers with
  | nil =>
    obtain ⟨-, rfl⟩ := Setup.gives_pure.mp gives
    exact ⟨[], (none _).symm, .nil⟩
  | cons x rest ih =>
    rw [List.mapM_cons] at gives
    simp only [Setup.gives_bind, Setup.gives_pure] at gives
    obtain ⟨answer, mid, first, answers, after, others, -, rfl⟩ := gives
    obtain ⟨added, grown, here⟩ := each x desk answer mid first
    obtain ⟨later, grown', there⟩ := ih others
    rw [grown, space] at there
    exact ⟨added :: later, by rw [grown', grown, more, List.flatten_cons], .cons here there⟩

theorem withRows_nil (m : Matcher) : m.withRows [] = m := by simp [withRows]

theorem withRows_append (m : Matcher) (first rest : List Constraint) :
    (m.withRows first).withRows rest = m.withRows (first ++ rest) := by simp [withRows]

theorem withComposers_nil (m : Matcher) : m.withComposers [] = m := by simp [withComposers]

theorem withComposers_append (m : Matcher) (first rest : List Composer) :
    (m.withComposers first).withComposers rest = m.withComposers (first ++ rest) := by
  simp [withComposers]

theorem excludeMarkers_gives {map : MarkerMap} {answer : List Constraint}
    (gives : (excludeMarkers map).Gives desk answer next) : ∃ pairs added, map.pairs = .ok pairs ∧
      next.matcher = desk.matcher.withRows added.flatten ∧ List.Forall₂ (fun pair added =>
        ∃ view, desk.matcher.space.subset (restrictionOf pair) = .ok view ∧
          RowsOver view .eq (.int 0) added) pairs added := by
  simp only [excludeMarkers, Setup.gives_bind, Setup.gives_lift, Setup.gives_pure, and_assoc,
    exists_and_left, exists_eq_left] at gives
  obtain ⟨pairs, read, _, mid, steps, -, rfl⟩ := gives
  obtain ⟨added, grown, all⟩ := mapM_gives (fun space pair added =>
    ∃ view, space.subset (restrictionOf pair) = .ok view ∧ RowsOver view .eq (.int 0) added)
    withRows_nil withRows_append (fun _ _ => rfl) (fun _ _ _ _ gives => exclude_gives gives) steps
  exact ⟨pairs, added, read, grown, all⟩

theorem includeMarkers_gives {map : MarkerMap} {answer : List Composer}
    (gives : (includeMarkers map weight).Gives desk answer next) : ∃ pairs added, map.pairs = .ok pairs ∧
      next.matcher = desk.matcher.withComposers added.flatten ∧ List.Forall₂ (fun pair added =>
        ∃ view, desk.matcher.space.subset (restrictionOf pair) = .ok view ∧
          ComposersOver view weight added) pairs added := by
  simp only [includeMarkers, Setup.gives_bind, Setup.gives_lift, Setup.gives_pure, and_assoc,
    exists_and_left, exists_eq_left] at gives
  obtain ⟨pairs, read, _, mid, steps, -, rfl⟩ := gives
  obtain ⟨added, grown, all⟩ := mapM_gives (fun space pair added =>
    ∃ view, space.subset (restrictionOf pair) = .ok view ∧ ComposersOver view weight added)
    withComposers_nil withComposers_append (fun _ _ => rfl) (fun _ _ _ _ gives => addComposer_gives gives) steps
  exact ⟨pairs, added, read, grown, all⟩

theorem require_gives {op : Operator} {answer : List Constraint}
    (gives : (require op restriction target name).Gives desk answer next) : ∃ added,
      next.matcher = desk.matcher.withRows added.flatten ∧ List.Forall₂ (fun part added =>
        ∃ view, desk.matcher.space.subset part = .ok view ∧
          RowsOver view op (targetOf target view) added) (expand restriction) added := by
  simp only [require, Setup.gives_bind, Setup.gives_pure] at gives
  obtain ⟨_, mid, steps, -, rfl⟩ := gives
  obtain ⟨added, grown, all⟩ := mapM_gives (fun space part added =>
    ∃ view, space.subset part.1 = .ok view ∧ RowsOver view op (targetOf target view) added)
    withRows_nil withRows_append (fun _ _ => rfl) (fun _ _ _ _ gives => requirePart_gives gives) steps
  refine ⟨added, grown, ?_⟩
  have parts : (expand restriction).zipIdx.map (·.1) = expand restriction := List.zipIdx_map_fst ..
  rw [← parts, List.forall₂_map_left_iff]
  exact all

end Matcher

namespace Call

open Matcher

variable {desk : Desk} {restriction : Keyed Value} {collection count weight padding : Value}

theorem addComposer_puts (desk : Desk) {view : View} (checked : Weight.check weight = .ok weight)
    (narrowed : desk.matcher.space.subset restriction = .ok view) : ∃ answer,
      (addComposer restriction weight).run.Gives desk answer { desk with
        matcher := desk.matcher.withComposers (if view.isEmpty then [] else [⟨weight, view⟩]) } := by
  have offered : (offer restriction weight).Gives desk ⟨weight, view⟩ desk := offer_gives.mpr ⟨checked, narrowed, rfl⟩
  obtain ⟨answer, next, enlisted⟩ : ∃ answer next, (enlist ⟨weight, view⟩).Gives desk answer next := by
    unfold enlist
    cases view.isEmpty with
    | true => exact ⟨none, desk, rfl⟩
    | false => exact ⟨_, _, rfl⟩
  obtain ⟨answered, grown⟩ := enlist_gives enlisted
  have left : next = { desk with
      matcher := desk.matcher.withComposers (if view.isEmpty then [] else [⟨weight, view⟩]) } := by
    rw [grown, answered]
    cases view.isEmpty <;> rfl
  rw [← left]
  exact ⟨_, Setup.gives_bind.mpr ⟨answer, next, Setup.gives_bind.mpr ⟨_, _, offered, enlisted⟩, rfl⟩⟩

theorem setCount_puts {rule : Count} {p : Int} (known : desk.matcher.space.table.hasName collection = .ok true)
    (read : Count.read count = .ok rule) (padded : padding.readInt = .ok p) :
    (setCount collection count padding).run.Gives desk (.count rule)
      { desk with matcher.counts := desk.matcher.counts.put collection (rule, p) } := by
  simp only [run, Matcher.setCount, Setup.gives_bind, Setup.gives_get, Setup.gives_lift, and_assoc,
    exists_and_left, exists_eq_left, known, Except.ok.injEq, exists_eq_left', if_true, Setup.gives_set,
    Setup.gives_pure]
  exact ⟨rule, _, ⟨rule, read, p, padded, rfl, (), rfl⟩, rfl, rfl⟩

end Call

end Matchmaking
