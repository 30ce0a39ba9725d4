import Matchmaking.Proofs.Matcher.Meaning
import Matchmaking.Proofs.Matcher.Steps

/-! What a call can do to its desk, whether it succeeds or fails on the way. It adds rows that it
asks for, each under a name of its own, and composers of views of the space, and it sets the count
of a collection. What each of these edits leaves true is true after every call. -/
namespace Matchmaking.Call

open Matcher Setup Stateful

/-- The rows that a call asks for, as they are before they are named. -/
def Asks (m : Matcher) (c : Constraint) : Call → Prop
  | .addRow source => rowFrom m source = .ok c
  | .exclude .. | .excludeMarkers _ =>
    ∃ restriction view name, m.space.subset restriction = .ok view ∧ c = rowOf view .eq (.int 0) name
  | .require op _ target _ =>
    ∃ restriction view name, m.space.subset restriction = .ok view ∧ c = rowOf view op (targetOf target view) name
  | _ => False

/-- One change that a call makes to its desk. -/
inductive Edit (call : Call) (desk : Desk) : Desk → Prop where
  | row {c row : Constraint} {namer : Namer} (asked : call.Asks desk.matcher c)
      (checked : checkVariables desk.matcher.space c.unknowns = .ok ())
      (naming : nameRow desk.namer c = .ok (row, namer)) : Edit call desk ⟨desk.matcher.withRows [row], namer⟩
  | composer {restriction : Keyed Value} {composer : Composer} (asked : call.weight? = some composer.weight)
      (checked : Weight.check composer.weight = .ok composer.weight)
      (narrowed : desk.matcher.space.subset restriction = .ok composer.view) :
      Edit call desk { desk with matcher := desk.matcher.withComposers [composer] }
  | count {collection count padding : Value} {rule : Count} {p : Int}
      (asked : call = .setCount collection count padding)
      (known : desk.matcher.space.table.hasName collection = .ok true) (read : Count.read count = .ok rule) :
      Edit call desk { desk with matcher.counts := desk.matcher.counts.put collection (rule, p) }

variable {call : Call} {desk : Desk} {restriction : Keyed Value} {name weight : Value}

theorem addRow_makes {c : Constraint} (asked : call.Asks desk.matcher c) : Makes call.Edit desk (Matcher.addRow c) := by
  unfold Matcher.addRow
  refine .get_bind (.lift_bind fun _ checked => .lift_bind fun named naming => ?_)
  obtain ⟨row, namer⟩ := named
  exact .bind (.set (.row asked checked naming)) fun _ _ _ => .pure _

theorem addComposer_makes (asked : call.weight? = some weight) :
    Makes call.Edit desk (Matcher.addComposer restriction weight) := by
  have offers : Makes call.Edit desk (offer restriction weight) :=
    .lift_bind fun _ _ => .get_bind (.lift_bind fun _ _ => .pure _)
  refine .bind offers fun composer mid offered => ?_
  obtain ⟨checked, narrowed, rfl⟩ := offer_gives.mp offered
  have same := check_eq_ok checked
  unfold enlist
  split
  · exact .pure _
  · refine .bind (.modify (.composer ?_ ?_ narrowed)) fun _ _ _ => .pure _
    · rw [asked, same]
    · rw [← same] at checked
      exact checked

theorem exclude_makes (asks : ∀ m restriction view name, m.space.subset restriction = .ok view →
    call.Asks m (rowOf view .eq (.int 0) name)) : Makes call.Edit desk (Matcher.exclude restriction name) := by
  unfold Matcher.exclude
  refine .get_bind (.lift_bind fun view narrowed => ?_)
  split
  · exact .pure _
  · exact .bind (addRow_makes (asks _ _ _ _ narrowed)) fun _ _ _ => .pure _

theorem setCount_makes {collection count padding : Value} :
    Makes (setCount collection count padding).Edit desk (Matcher.setCount collection count padding) := by
  unfold Matcher.setCount
  refine .get_bind (.lift_bind fun known named => ?_)
  split
  · rename_i yes
    rw [yes] at named
    refine .lift_bind fun rule read => .lift_bind fun p _ => .bind (.set ?_) fun _ _ _ => .pure _
    exact .count rfl named read
  · exact .throw _

theorem requirePart_makes {op : Operator} {target : Value} {parts : Nat} {part : Keyed Value × Nat} :
    Makes (require op restriction target name).Edit desk (requirePart op target name parts part) := by
  unfold requirePart
  refine .get_bind (.lift_bind fun view narrowed => ?_)
  split
  · exact .pure _
  · refine .lift_bind fun named _ => ?_
    have asked : (require op restriction target name).Asks desk.matcher
        (rowOf view op (targetOf target view) named) := ⟨_, _, _, narrowed, rfl⟩
    cases target with
    | null =>
      simp only [pure_bind]
      refine .lift_bind fun size counted => .bind (addRow_makes ?_) fun _ _ _ => .pure _
      rw [View.length_eq_ok counted]
      exact asked
    | _ =>
      simp only [pure_bind]
      exact .bind (addRow_makes asked) fun _ _ _ => .pure _

theorem run_makes (call : Call) (desk : Desk) : Makes call.Edit desk call.run := by
  cases call with
  | addComposer restriction weight => exact .bind (addComposer_makes rfl) fun _ _ _ => .pure _
  | addRow source => exact .get_bind (.lift_bind fun row found => .bind (addRow_makes found) fun _ _ _ => .pure _)
  | exclude restriction name =>
    exact .bind (exclude_makes fun _ _ _ _ narrowed => ⟨_, _, _, narrowed, rfl⟩) fun _ _ _ => .pure _
  | excludeMarkers map =>
    refine .bind (.lift_bind fun _ _ => .bind (.mapM (fun _ _ => ?_) _) fun _ _ _ => .pure _) fun _ _ _ => .pure _
    exact exclude_makes fun _ _ _ _ narrowed => ⟨_, _, _, narrowed, rfl⟩
  | includeMarkers map weight =>
    refine .bind (.lift_bind fun _ _ => .bind (.mapM (fun _ _ => ?_) _) fun _ _ _ => .pure _) fun _ _ _ => .pure _
    exact addComposer_makes rfl
  | setCount collection count padding => exact .bind setCount_makes fun _ _ _ => .pure _
  | require op restriction target name =>
    exact .bind (.bind (.mapM (fun _ _ => requirePart_makes) _) fun _ _ _ => .pure _) fun _ _ _ => .pure _

theorem run_keeps (holds : Desk → Prop) (kept : ∀ desk next, call.Edit desk next → holds desk → holds next)
    (held : holds desk) : holds (outcome call.run desk).2 := by
  have made := run_makes call desk
  unfold Makes at made
  generalize (outcome call.run desk).2 = next at made ⊢
  induction made with
  | refl => exact held
  | tail _ edit ih => exact kept _ _ edit ih

theorem run_space : (outcome call.run desk).2.matcher.space = desk.matcher.space := by
  refine call.run_keeps (fun next => next.matcher.space = desk.matcher.space) (fun mid next edit same => ?_) rfl
  cases edit <;> exact same

end Matchmaking.Call
