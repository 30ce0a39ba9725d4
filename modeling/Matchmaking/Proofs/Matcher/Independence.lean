import Matchmaking.Proofs.Matcher.Closure

/-! Calls of different kinds do not get into each other's way. Calls that add composers, calls that
add rows and calls that set counts each work on a part of a desk of their own, so what becomes of a
desk depends on the order of the calls of each kind and not on how they are mixed, nor on the
questions in between. -/
namespace Matchmaking

open Stateful

inductive Call.Kind where
  | composers
  | rows
  | counts
  deriving DecidableEq

def Call.kind : Call → Kind
  | .addComposer .. | .includeMarkers .. => .composers
  | .setCount .. => .counts
  | _ => .rows

/-- A desk with nothing on it but what calls of a kind work on. -/
def Desk.only (desk : Desk) : Call.Kind → Desk
  | .composers => ⟨{ desk.matcher with constraints := [], counts := [] }, default⟩
  | .rows => ⟨{ desk.matcher with composers := [], counts := [] }, desk.namer⟩
  | .counts => ⟨{ desk.matcher with constraints := [], composers := [] }, default⟩

/-- There is nothing else on a desk. -/
theorem Desk.eq_of_only {desk other : Desk} (same : ∀ kind, desk.only kind = other.only kind) : desk = other := by
  have composers := same .composers
  have rows := same .rows
  have counts := same .counts
  obtain ⟨⟨_, _, _, _, _, _⟩, _⟩ := desk
  obtain ⟨⟨_, _, _, _, _, _⟩, _⟩ := other
  simp only [only, Desk.mk.injEq, Matcher.mk.injEq] at composers rows counts
  simp only [Desk.mk.injEq, Matcher.mk.injEq]
  grind

namespace Call

variable {call : Call} {kind : Kind} {desk next : Desk}

theorem kind_of_asks {m : Matcher} {c : Constraint} (asked : call.Asks m c) : call.kind = .rows := by
  cases call with
  | addRow | exclude | excludeMarkers | require => rfl
  | _ => exact asked.elim

theorem kind_of_weight? {weight : Value} (asked : call.weight? = some weight) : call.kind = .composers := by
  cases call with
  | addComposer | includeMarkers => rfl
  | _ => cases asked

theorem Edit.only_other (edit : call.Edit desk next) (other : call.kind ≠ kind) : next.only kind = desk.only kind := by
  cases edit with
  | row asked =>
    cases kind with
    | rows => exact absurd (kind_of_asks asked) other
    | _ => rfl
  | composer asked =>
    cases kind with
    | composers => exact absurd (kind_of_weight? asked) other
    | _ => rfl
  | count asked =>
    cases kind with
    | counts => exact absurd (congrArg Call.kind asked) other
    | _ => rfl

theorem run_only_other (other : call.kind ≠ kind) (desk : Desk) :
    (outcome call.run desk).2.only kind = desk.only kind :=
  run_keeps (fun next => next.only kind = desk.only kind)
    (fun _ _ edit held => (edit.only_other other).trans held) rfl

end Call

namespace Setup

variable {α β : Type} {f : Desk → Desk}

/-- A step that does the same when a desk is changed before it as when it is changed behind it. -/
def Commutes (f : Desk → Desk) (step : Setup α) : Prop :=
  ∀ desk, outcome step (f desk) = ((outcome step desk).1, f (outcome step desk).2)

namespace Commutes

theorem pure (a : α) : Commutes f (pure a) := fun _ => rfl

theorem bind {step : Setup α} {rest : α → Setup β} (first : Commutes f step) (others : ∀ a, Commutes f (rest a)) :
    Commutes f (step >>= rest) := by
  intro desk
  rw [outcome_bind, outcome_bind, first desk]
  rcases outcome step desk with ⟨failure | a, mid⟩
  · rfl
  · exact others a mid

theorem lift (found : Except Failure α) : Commutes f (liftM found) := fun _ => rfl

theorem get_bind {rest : Desk → Setup α} (unaffected : ∀ desk, rest (f desk) = rest desk)
    (others : ∀ desk, Commutes f (rest desk)) : Commutes f (MonadState.get >>= rest) := by
  intro desk
  show outcome (rest (f desk)) (f desk) = _
  rw [unaffected]
  exact others desk desk

theorem mapM {step : β → Setup α} (each : ∀ x, Commutes f (step x)) (xs : List β) : Commutes f (xs.mapM step) := by
  induction xs with
  | nil => exact pure []
  | cons x xs ih =>
    rw [List.mapM_cons]
    exact bind (each x) fun _ => bind ih fun _ => pure _

end Commutes

end Setup

namespace Matcher

open Setup

theorem outcome_addRow (c : Constraint) (desk : Desk) : outcome (addRow c) desk =
    match (do checkVariables desk.matcher.space c.unknowns; nameRow desk.namer c : Except Failure _) with
    | .ok (row, namer) => (.ok row, ⟨desk.matcher.withRows [row], namer⟩)
    | .error failure => (.error failure, desk) := by
  simp only [addRow, outcome_bind, outcome_get, outcome_lift]
  cases checkVariables desk.matcher.space c.unknowns with
  | error failure => rfl
  | ok _ =>
    simp only [ok_bind]
    cases nameRow desk.namer c <;> rfl

theorem addRow_commutes (c : Constraint) : Commutes (Desk.only · .rows) (addRow c) := by
  intro desk
  have same : (do checkVariables (desk.only .rows).matcher.space c.unknowns; nameRow (desk.only .rows).namer c) =
      (do checkVariables desk.matcher.space c.unknowns; nameRow desk.namer c) := rfl
  rw [outcome_addRow, outcome_addRow, same]
  cases (do checkVariables desk.matcher.space c.unknowns; nameRow desk.namer c : Except Failure _) <;> rfl

theorem exclude_commutes (restriction : Keyed Value) (name : Value) :
    Commutes (Desk.only · .rows) (exclude restriction name) := by
  refine .get_bind (fun _ => rfl) fun desk => (Commutes.lift _).bind fun view => ?_
  split
  · exact .pure _
  · exact (addRow_commutes _).bind fun _ => .pure _

theorem requirePart_commutes (op : Operator) (target name : Value) (parts : Nat) (part : Keyed Value × Nat) :
    Commutes (Desk.only · .rows) (requirePart op target name parts part) := by
  refine .get_bind (fun _ => rfl) fun desk => (Commutes.lift _).bind fun view => ?_
  split
  · exact .pure _
  · refine (Commutes.lift _).bind fun named => ?_
    cases target with
    | null => exact (Commutes.lift _).bind fun _ => (addRow_commutes _).bind fun _ => .pure _
    | _ => exact (addRow_commutes _).bind fun _ => .pure _

theorem addComposer_commutes (restriction : Keyed Value) (weight : Value) :
    Commutes (Desk.only · .composers) (addComposer restriction weight) := by
  refine .bind (.bind (.lift _) fun weight => .get_bind (fun _ => rfl) fun desk => ?_) fun composer => ?_
  · exact (Commutes.lift _).bind fun _ => .pure _
  · unfold enlist
    split
    · exact .pure _
    · exact .bind (fun _ => rfl) fun _ => .pure _

def countRule (table : Table) (collection count padding : Value) : Except Failure (Count × Int) := do
  if ← table.hasName collection then return (← Count.read count, ← padding.readInt)
  else throw (.noSuchCollection collection)

theorem outcome_setCount (collection count padding : Value) (desk : Desk) :
    outcome (setCount collection count padding) desk =
      match countRule desk.matcher.space.table collection count padding with
      | .ok rule => (.ok rule.1, { desk with matcher.counts := desk.matcher.counts.put collection rule })
      | .error failure => (.error failure, desk) := by
  simp only [setCount, countRule, outcome_bind, outcome_get, outcome_lift]
  rcases desk.matcher.space.table.hasName collection with failure | _ | _
  · rfl
  · rfl
  · simp only [ok_bind, if_true, outcome_bind, outcome_lift]
    rcases Count.read count with failure | rule
    · rfl
    · rcases padding.readInt with failure | p <;> rfl

theorem setCount_commutes (collection count padding : Value) :
    Commutes (Desk.only · .counts) (setCount collection count padding) := by
  intro desk
  have same : countRule (desk.only .counts).matcher.space.table collection count padding =
      countRule desk.matcher.space.table collection count padding := rfl
  rw [outcome_setCount, outcome_setCount, same]
  cases countRule desk.matcher.space.table collection count padding <;> rfl

end Matcher

namespace Call

open Setup Matcher

/-- Calls of one kind do to their part of a desk what they do to the part alone. -/
theorem run_commutes (call : Call) : Commutes (Desk.only · call.kind) call.run := by
  cases call with
  | addComposer restriction weight => exact (addComposer_commutes _ _).bind fun _ => .pure _
  | addRow source =>
    refine .get_bind (fun desk => ?_) fun desk => (Commutes.lift _).bind fun row => ?_
    · cases source <;> rfl
    · exact (addRow_commutes row).bind fun _ => .pure _
  | exclude restriction name => exact (exclude_commutes _ _).bind fun _ => .pure _
  | excludeMarkers map =>
    exact .bind (.bind (.lift _) fun _ => (Commutes.mapM (fun _ => exclude_commutes _ _) _).bind fun _ => .pure _)
      fun _ => .pure _
  | includeMarkers map weight =>
    exact .bind (.bind (.lift _) fun _ => (Commutes.mapM (fun _ => addComposer_commutes _ _) _).bind fun _ => .pure _)
      fun _ => .pure _
  | setCount collection count padding => exact (setCount_commutes _ _ _).bind fun _ => .pure _
  | require op restriction target name =>
    exact .bind (.bind (.mapM (requirePart_commutes _ _ _ _) _) fun _ => .pure _) fun _ => .pure _

end Call

namespace Desk

variable {desk : Desk}

/-- Of the calls only those of a kind bear on what calls of the kind work on. -/
theorem after_only (kind : Call.Kind) (desk : Desk) (calls : List Call) :
    (desk.after calls).only kind = (desk.only kind).after (calls.filter (·.kind = kind)) := by
  induction calls generalizing desk with
  | nil => rfl
  | cons call calls ih =>
    show ((outcome call.run desk).2.after calls).only kind = _
    rw [ih]
    by_cases own : call.kind = kind
    · subst own
      rw [List.filter_cons_of_pos (by simp)]
      show _ = (outcome call.run (desk.only call.kind)).2.after _
      rw [call.run_commutes desk]
    · rw [List.filter_cons_of_neg (by simpa using own), Call.run_only_other own]

/-- Calls that are mixed in another way come to the same. -/
theorem after_eq {first second : List Call}
    (same : ∀ kind, first.filter (fun call => call.kind = kind) = second.filter fun call => call.kind = kind) :
    desk.after first = desk.after second :=
  eq_of_only fun kind => by rw [after_only, after_only, same kind]

theorem after_whole {table : Table} (held : desk.matcher.Holds table Constraint.IsWhole) {calls : List Call}
    (whole : ∀ call ∈ calls, call.IsWhole) : (desk.after calls).matcher.Holds table Constraint.IsWhole := by
  induction calls generalizing desk with
  | nil => exact held
  | cons call calls ih =>
    obtain ⟨first, others⟩ := List.forall_mem_cons.mp whole
    exact ih (Call.run_whole first held) others

end Desk

def Action.callsOf (kind : Call.Kind) (actions : List Action) : List Call :=
  (actions.filterMap call?).filter fun call => call.kind = kind

namespace Bench

/-- Two runs of actions on a new matcher with the same composer calls, the same row calls and the same
counts in order end with one and the same program, and with the same text of it, however the calls are
mixed and whatever is asked in between. -/
theorem problem_of_interleaving {collections : Keyed Value} {backend timeLimit : Value} {start : Matcher}
    {first second : List Action} (mapping : collections.IsMapping)
    (built : Matcher.build collections backend timeLimit = .ok start) (namer : Namer)
    (whole : ∀ call, .configure call ∈ first → call.IsWhole)
    (composers : Action.callsOf .composers first = Action.callsOf .composers second)
    (rows : Action.callsOf .rows first = Action.callsOf .rows second)
    (counts : Action.callsOf .counts first = Action.callsOf .counts second) :
    ∃ p, (outcome problem (after ⟨⟨start, namer⟩, {}⟩ first)).1 = .ok p ∧
      (outcome problem (after ⟨⟨start, namer⟩, {}⟩ second)).1 = .ok p ∧
      (outcome text (after ⟨⟨start, namer⟩, {}⟩ first)).1 = .ok p.toText ∧
      (outcome text (after ⟨⟨start, namer⟩, {}⟩ second)).1 = .ok p.toText := by
  obtain ⟨table, sound, -, -, fresh⟩ := Matcher.holds_of_build mapping built
  obtain ⟨coherent, desk⟩ := after_leaves (coherent_fresh ⟨start, namer⟩) first
  obtain ⟨coherent', desk'⟩ := after_leaves (coherent_fresh ⟨start, namer⟩) second
  have same : (after ⟨⟨start, namer⟩, {}⟩ second).desk = (after ⟨⟨start, namer⟩, {}⟩ first).desk := by
    rw [desk, desk']
    refine Desk.after_eq fun kind => ?_
    cases kind
    · exact composers.symm
    · exact rows.symm
    · exact counts.symm
  have held : (after ⟨⟨start, namer⟩, {}⟩ first).desk.matcher.Holds table Constraint.IsWhole := by
    rw [desk]
    refine Desk.after_whole (fresh _) fun call member => ?_
    obtain ⟨action, inside, found⟩ := List.mem_filterMap.mp member
    cases action <;> cases found
    exact whole call inside
  obtain ⟨p, composed⟩ : ∃ p, (after ⟨⟨start, namer⟩, {}⟩ first).desk.problem = .ok p :=
    held.compose_succeeds sound (fun _ whole => whole) _
  refine ⟨p, ?_, ?_, ?_, ?_⟩
  · rw [problem_tells.answers coherent, composed]
  · rw [problem_tells.answers coherent', same, composed]
  · rw [text_tells.answers coherent, composed]
    rfl
  · rw [text_tells.answers coherent', same, composed]
    rfl

/-- A row, a composer and a count in two orders, with questions here and there. -/
theorem problem_of_two_orders : ∃ start p,
    Matcher.build [(.text "a", .list [.text "x"])] .null .null = .ok start ∧
    (outcome problem (after ⟨⟨start, {}⟩, {}⟩ [.ask .active, .configure (.exclude [] .null),
      .configure (.addComposer [] (.int 2)), .ask .text,
      .configure (.setCount (.text "a") (.int 1) (.int 0))])).1 = .ok p ∧
    (outcome problem (after ⟨⟨start, {}⟩, {}⟩ [.configure (.setCount (.text "a") (.int 1) (.int 0)), .ask .problem,
      .configure (.addComposer [] (.int 2)), .ask .objective, .configure (.exclude [] .null)])).1 = .ok p := by
  obtain ⟨start, mapping, built, -⟩ := Matcher.build_single
  let row : Call := .exclude [] .null
  let composer : Call := .addComposer [] (.int 2)
  let count : Call := .setCount (.text "a") (.int 1) (.int 0)
  let first : List Action := [.ask .active, .configure row, .configure composer, .ask .text, .configure count]
  let second : List Action := [.configure count, .ask .problem, .configure composer, .ask .objective, .configure row]
  have excluded : row.IsWhole := trivial
  have weighed : composer.IsWhole := Call.addComposer_whole [] 2
  have counted : count.IsWhole := Call.setCount_whole (.text "a") 1 (.int 0)
  have whole : ∀ call, .configure call ∈ first → call.IsWhole := by simp [first, excluded, weighed, counted]
  have composers : Action.callsOf .composers first = Action.callsOf .composers second := rfl
  have rows : Action.callsOf .rows first = Action.callsOf .rows second := rfl
  have counts : Action.callsOf .counts first = Action.callsOf .counts second := rfl
  obtain ⟨p, once, again, -⟩ := problem_of_interleaving mapping built {} whole composers rows counts
  exact ⟨start, p, built, once, again⟩

end Bench

end Matchmaking
