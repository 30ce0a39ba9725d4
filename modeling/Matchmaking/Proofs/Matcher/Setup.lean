import Mathlib.Logic.Relation
import Matchmaking.Matcher.Call
import Matchmaking.Proofs.Stateful

/-! Configuration steps at a desk. `Gives` speaks of the steps that succeed, and `Makes` of the
edits that every step makes, whether it succeeds or fails on the way. -/
namespace Matchmaking

namespace Setup

open Stateful

variable {α β : Type} {desk next : Desk}

/-- A step that succeeds, with its answer and the desk it leaves. -/
def Gives (step : Setup α) (desk : Desk) (answer : α) (next : Desk) : Prop :=
  outcome step desk = (.ok answer, next)

@[simp] theorem gives_pure {a b : α} : Gives (pure a) desk b next ↔ b = a ∧ next = desk := by
  simp [Gives, eq_comm]

@[simp] theorem gives_throw {failure : Failure} {a : α} : ¬Gives (throw failure) desk a next := by
  simp [Gives]

@[simp] theorem gives_get {found : Desk} : Gives get desk found next ↔ found = desk ∧ next = desk := by
  simp [Gives, eq_comm]

@[simp] theorem gives_set {other : Desk} {u : Unit} : Gives (set other) desk u next ↔ next = other := by
  simp [Gives, eq_comm]

@[simp] theorem gives_modify {change : Desk → Desk} {u : Unit} :
    Gives (modify change) desk u next ↔ next = change desk := by
  simp [Gives, eq_comm]

@[simp] theorem gives_lift {found : Except Failure α} {a : α} :
    Gives (liftM found) desk a next ↔ found = .ok a ∧ next = desk := by
  simp [Gives, eq_comm]

@[simp] theorem gives_bind {step : Setup α} {rest : α → Setup β} {b : β} :
    Gives (step >>= rest) desk b next ↔
      ∃ a mid, Gives step desk a mid ∧ Gives (rest a) mid b next :=
  outcome_bind_ok

/-- Steps that each succeed and keep what they need succeed one after the other. -/
theorem mapM_succeeds {step : β → Setup α} {holds : Desk → Prop} {xs : List β} (each : ∀ x ∈ xs, ∀ desk, holds desk →
      ∃ answer next, (step x).Gives desk answer next ∧ holds next) (start : holds desk) :
    ∃ answers next, (xs.mapM step).Gives desk answers next ∧ holds next := by
  induction xs generalizing desk with
  | nil => exact ⟨[], desk, rfl, start⟩
  | cons x rest ih =>
    obtain ⟨own, others⟩ := List.forall_mem_cons.mp each
    obtain ⟨answer, mid, first, kept⟩ := own desk start
    obtain ⟨answers, next, later, kept⟩ := ih others kept
    refine ⟨answer :: answers, next, ?_, kept⟩
    rw [List.mapM_cons]
    exact gives_bind.mpr ⟨answer, mid, first, gives_bind.mpr ⟨answers, next, later, rfl⟩⟩

/-- Whatever becomes of a step, it changes its desk by edits of a kind. -/
def Makes (edit : Desk → Desk → Prop) (desk : Desk) (step : Setup α) : Prop :=
  Relation.ReflTransGen edit desk (outcome step desk).2

namespace Makes

variable {edit : Desk → Desk → Prop}

theorem pure (a : α) : Makes edit desk (pure a) := .refl

theorem throw (failure : Failure) : Makes edit desk (throw failure : Setup α) := .refl

theorem set (edited : edit desk next) : Makes edit desk (set next) := .single edited

theorem modify {change : Desk → Desk} (edited : edit desk (change desk)) : Makes edit desk (modify change) :=
  .single edited

theorem bind {step : Setup α} {rest : α → Setup β} (first : Makes edit desk step)
    (others : ∀ a mid, Gives step desk a mid → Makes edit mid (rest a)) : Makes edit desk (step >>= rest) := by
  unfold Makes at first ⊢
  rw [outcome_bind]
  rcases found : outcome step desk with ⟨failure | a, mid⟩ <;> rw [found] at first
  · exact first
  · exact first.trans (others a mid found)

theorem get_bind {rest : Desk → Setup α} (others : Makes edit desk (rest desk)) :
    Makes edit desk (MonadState.get >>= rest) := others

theorem lift_bind {found : Except Failure β} {rest : β → Setup α}
    (others : ∀ b, found = .ok b → Makes edit desk (rest b)) : Makes edit desk (liftM found >>= rest) := by
  unfold Makes
  rw [outcome_bind, outcome_lift]
  cases known : found with
  | error failure => exact .refl
  | ok b => exact others b known

theorem mapM {step : β → Setup α} (each : ∀ x desk, Makes edit desk (step x)) (xs : List β) :
    Makes edit desk (xs.mapM step) := by
  induction xs generalizing desk with
  | nil => exact pure []
  | cons x xs ih =>
    rw [List.mapM_cons]
    exact bind (each x desk) fun _ _ _ => bind ih fun _ _ _ => pure _

end Makes

end Setup

end Matchmaking
