import Mathlib.Data.List.Forall2
import Matchmaking.Failure

/-! When checked steps succeed: a sequence of them if each does, a list of them if every item
does, and what a list of them gives is given item by item. -/
namespace Matchmaking

variable {α β γ : Type}

theorem bind_eq_ok {x : Except Failure α} {f : α → Except Failure β} {b : β} :
    (x >>= f) = .ok b ↔ ∃ a, x = .ok a ∧ f a = .ok b := by
  cases x <;> simp [bind, Except.bind]

@[simp] theorem ok_bind (a : α) (f : α → Except Failure β) : (Except.ok a >>= f) = f a := rfl

@[simp] theorem error_bind (failure : Failure) (f : α → Except Failure β) :
    (Except.error failure >>= f) = .error failure := rfl

@[simp] theorem pure_eq_ok (a : α) : (pure a : Except Failure α) = .ok a := rfl

theorem mapM_eq_ok {f : α → Except Failure β} {xs : List α} {ys : List β} :
    xs.mapM f = .ok ys ↔ List.Forall₂ (fun x y => f x = .ok y) xs ys := by
  induction xs generalizing ys with
  | nil => cases ys <;> simp
  | cons x xs ih =>
    rw [List.mapM_cons, bind_eq_ok]
    constructor
    · rintro ⟨y, first, rest⟩
      obtain ⟨others, found, equal⟩ := bind_eq_ok.mp rest
      cases equal
      exact .cons first (ih.mp found)
    · intro related
      cases related with
      | cons first rest => exact ⟨_, first, by rw [ih.mpr rest]; rfl⟩

theorem mapM_ok (f : α → β) (xs : List α) :
    (xs.mapM fun x => (Except.ok (f x) : Except Failure β)) = .ok (xs.map f) := by
  rw [mapM_eq_ok, List.forall₂_map_right_iff]
  exact List.forall₂_same.mpr fun _ _ => rfl

/-- What a list of steps gives, where each that succeeds gives one thing on one condition. -/
theorem mapM_spec {f : α → Except Failure β} {g : α → β} {P : α → Prop}
    (each : ∀ x y, f x = .ok y → y = g x ∧ P x) {xs : List α} {ys : List β} (read : xs.mapM f = .ok ys) :
    ys = xs.map g ∧ ∀ x ∈ xs, P x := by
  have related := mapM_eq_ok.mp read
  clear read
  induction related with
  | nil => simp
  | cons first _ ih =>
    obtain ⟨equal, holds⟩ := each _ _ first
    exact ⟨by rw [List.map_cons, equal, ih.1], List.forall_mem_cons.mpr ⟨holds, ih.2⟩⟩

theorem exists_of_mem_right {R : α → β → Prop} {xs : List α} {ys : List β}
    (related : List.Forall₂ R xs ys) {y : β} (member : y ∈ ys) : ∃ x ∈ xs, R x y := by
  induction related with
  | nil => simp at member
  | cons first rest ih =>
    rcases List.mem_cons.mp member with rfl | inside
    · exact ⟨_, List.mem_cons_self, first⟩
    · obtain ⟨x, present, relation⟩ := ih inside
      exact ⟨x, List.mem_cons_of_mem _ present, relation⟩

theorem exists_forall₂ {R : α → β → Prop} {xs : List α} (each : ∀ x ∈ xs, ∃ y, R x y) :
    ∃ ys, List.Forall₂ R xs ys := by
  induction xs with
  | nil => exact ⟨[], .nil⟩
  | cons x xs ih =>
    obtain ⟨y, first⟩ := each x List.mem_cons_self
    obtain ⟨ys, rest⟩ := ih fun other member => each other (List.mem_cons_of_mem _ member)
    exact ⟨y :: ys, .cons first rest⟩

theorem forall₂_comp {R : α → β → Prop} {S : β → γ → Prop} {xs : List α} {ys : List β} {zs : List γ}
    (first : List.Forall₂ R xs ys) (second : List.Forall₂ S ys zs) :
    List.Forall₂ (fun x z => ∃ y, R x y ∧ S y z) xs zs := by
  induction first generalizing zs with
  | nil => cases second; exact .nil
  | cons related _ ih =>
    cases second with
    | cons related' others => exact .cons ⟨_, related, related'⟩ (ih others)

/-- What is related in two steps is related to something in between. -/
theorem exists_between {R : α → β → Prop} {S : β → γ → Prop} {xs : List α} {zs : List γ}
    (related : List.Forall₂ (fun x z => ∃ y, R x y ∧ S y z) xs zs) :
    ∃ ys, List.Forall₂ R xs ys ∧ List.Forall₂ S ys zs := by
  induction related with
  | nil => exact ⟨[], .nil, .nil⟩
  | cons first _ ih =>
    obtain ⟨y, left, right⟩ := first
    obtain ⟨ys, lefts, rights⟩ := ih
    exact ⟨y :: ys, .cons left lefts, .cons right rights⟩

theorem exists_append {R : α → β → Prop} {xs xs' : List α} {ys : List β} (related : List.Forall₂ R (xs ++ xs') ys) :
    ∃ zs zs', List.Forall₂ R xs zs ∧ List.Forall₂ R xs' zs' ∧ ys = zs ++ zs' := by
  induction xs generalizing ys with
  | nil => exact ⟨[], ys, .nil, related, rfl⟩
  | cons x xs ih =>
    cases related with
    | cons first others =>
      obtain ⟨zs, zs', left, right, rfl⟩ := ih others
      exact ⟨_ :: zs, zs', .cons first left, right, rfl⟩

theorem exists_flatten {R : α → β → Prop} {xss : List (List α)} {ys : List β}
    (related : List.Forall₂ R xss.flatten ys) : ∃ yss, List.Forall₂ (List.Forall₂ R) xss yss ∧ ys = yss.flatten := by
  induction xss generalizing ys with
  | nil =>
    cases related
    exact ⟨[], .nil, rfl⟩
  | cons xs xss ih =>
    obtain ⟨zs, others, first, rest, rfl⟩ := exists_append related
    obtain ⟨yss, each, rfl⟩ := ih rest
    exact ⟨zs :: yss, .cons first each, rfl⟩

/-- What holds between any two items of a list holds between what they are related to. -/
theorem pairwise_of_forall₂ {R : α → β → Prop} {S : α → α → Prop} {T : β → β → Prop}
    (each : ∀ {x x' y y'}, R x y → R x' y' → S x x' → T y y') {xs : List α} {ys : List β}
    (related : List.Forall₂ R xs ys) (pairs : xs.Pairwise S) : ys.Pairwise T := by
  induction related with
  | nil => exact .nil
  | @cons x y xs ys first others ih =>
    obtain ⟨apart, pairs⟩ := List.pairwise_cons.mp pairs
    refine .cons (fun y' member => ?_) (ih pairs)
    obtain ⟨x', listed, second⟩ := exists_of_mem_right others member
    exact each first second (apart x' listed)

theorem mapM_flatten (f : α → Except Failure (List β)) (xss : List (List α)) :
    (do return (← xss.mapM fun xs => do return (← xs.mapM f).flatten).flatten : Except Failure (List β)) =
      do return (← xss.flatten.mapM f).flatten := by
  induction xss with
  | nil => rfl
  | cons xs rest ih =>
    rw [List.mapM_cons, List.flatten_cons, List.mapM_append]
    cases xs.mapM f with
    | error failure => rfl
    | ok first =>
      cases others : rest.mapM fun xs => (do return (← xs.mapM f).flatten : Except Failure (List β)) with
      | error failure =>
        cases joined : rest.flatten.mapM f with
        | error failure' =>
          rw [others, joined] at ih
          simpa using ih
        | ok last =>
          rw [others, joined] at ih
          cases ih
      | ok last =>
        cases joined : rest.flatten.mapM f with
        | error failure' =>
          rw [others, joined] at ih
          cases ih
        | ok last' =>
          rw [others, joined] at ih
          simpa using ih

theorem mapM_congr {f : α → Except Failure γ} {g : β → Except Failure γ} {xs : List α} {ys : List β}
    (same : List.Forall₂ (fun x y => f x = g y) xs ys) : xs.mapM f = ys.mapM g := by
  induction same with
  | nil => rfl
  | cons first _ ih => rw [List.mapM_cons, List.mapM_cons, first, ih]

/-- A step that gives an answer on a condition and fails for a given cause otherwise. -/
def Settles (step : Except Failure α) (condition : Prop) (answer : α) (failure : Failure) : Prop :=
  (condition → step = .ok answer) ∧ (¬condition → step = .error failure)

namespace Settles

variable {step : Except Failure α} {P Q : Prop} {failure : Failure} {a : α} {b : β}

theorem congr (settles : Settles step P a failure) (same : P ↔ Q) : Settles step Q a failure := by
  rwa [← propext same]

theorem bind {f : α → Except Failure β} (first : Settles step P a failure) (rest : Settles (f a) Q b failure) :
    Settles (step >>= f) (P ∧ Q) b failure := by
  constructor
  · rintro ⟨holds, others⟩
    rw [first.1 holds, ok_bind, rest.1 others]
  · intro not
    by_cases holds : P
    · rw [first.1 holds, ok_bind, rest.2 fun others => not ⟨holds, others⟩]
    · rw [first.2 holds, error_bind]

theorem bind_ok {f : α → Except Failure β} (first : Settles step P a failure) (rest : f a = .ok b) :
    Settles (step >>= f) P b failure :=
  (first.bind ⟨fun _ => rest, fun not => absurd trivial not⟩).congr (iff_of_eq (and_true P))

theorem mapM {f : α → Except Failure β} {g : γ → β} {P : γ → Prop} {xs : List α} {zs : List γ}
    (each : List.Forall₂ (fun x z => Settles (f x) (P z) (g z) failure) xs zs) :
    Settles (xs.mapM f) (∀ z ∈ zs, P z) (zs.map g) failure := by
  induction each with
  | nil => exact ⟨fun _ => rfl, fun not => absurd (by simp) not⟩
  | cons first _ ih =>
    rw [List.mapM_cons]
    refine (first.bind (ih.bind_ok ?_)).congr List.forall_mem_cons.symm
    rfl

end Settles

/-- A step that gives something on a condition and fails for a cause of a kind otherwise. -/
def Decides (step : Except Failure α) (condition : Prop) (bad : Failure → Prop) : Prop :=
  condition ∧ (∃ a, step = .ok a) ∨ ¬condition ∧ ∃ failure, step = .error failure ∧ bad failure

namespace Decides

variable {step : Except Failure α} {P Q : Prop} {bad : Failure → Prop}

theorem ok {a : α} : Decides (.ok a) True bad := .inl ⟨trivial, a, rfl⟩

theorem congr (decides : Decides step P bad) (same : P ↔ Q) : Decides step Q bad := by
  rwa [← propext same]

theorem bind {f : α → Except Failure β} (first : Decides step P bad)
    (rest : ∀ a, step = .ok a → Decides (f a) Q bad) : Decides (step >>= f) (P ∧ Q) bad := by
  rcases first with ⟨holds, a, rfl⟩ | ⟨not, failure, rfl, cause⟩
  · exact (rest a rfl).congr (and_iff_right holds).symm
  · exact .inr ⟨fun both => not both.1, failure, rfl, cause⟩

theorem bind_return {f : α → β} (first : Decides step P bad) : Decides (do return f (← step)) P bad :=
  (first.bind fun _ _ => .ok).congr (and_iff_left trivial)

theorem mapM {f : α → Except Failure β} {P : γ → Prop} {xs : List α} {zs : List γ}
    (each : List.Forall₂ (fun x z => Decides (f x) (P z) bad) xs zs) : Decides (xs.mapM f) (∀ z ∈ zs, P z) bad := by
  induction each with
  | nil => exact Decides.ok.congr (by simp)
  | cons first _ ih =>
    rw [List.mapM_cons]
    exact (first.bind fun _ _ => ih.bind_return).congr List.forall_mem_cons.symm

end Decides

/-- A step that gives something of a kind or fails for a cause of a kind. -/
def Ends (step : Except Failure α) (good : α → Prop) (bad : Failure → Prop) : Prop :=
  (∃ a, step = .ok a ∧ good a) ∨ ∃ failure, step = .error failure ∧ bad failure

namespace Ends

variable {step : Except Failure α} {good : α → Prop} {bad : Failure → Prop}

theorem bind {f : α → Except Failure β} {further : β → Prop} (first : Ends step good bad)
    (rest : ∀ a, good a → Ends (f a) further bad) : Ends (step >>= f) further bad := by
  rcases first with ⟨a, rfl, fine⟩ | ⟨failure, rfl, cause⟩
  · exact rest a fine
  · exact .inr ⟨failure, rfl, cause⟩

theorem mapM {f : α → Except Failure β} {xs : List α} (each : ∀ x ∈ xs, Ends (f x) (fun _ => True) bad) :
    Ends (xs.mapM f) (fun _ => True) bad := by
  induction xs with
  | nil => exact .inl ⟨[], rfl, trivial⟩
  | cons x xs ih =>
    obtain ⟨first, others⟩ := List.forall_mem_cons.mp each
    rw [List.mapM_cons]
    exact first.bind fun y _ => (ih others).bind fun ys _ => .inl ⟨y :: ys, rfl, trivial⟩

/-- A fold of steps each of which leaves something good or fails for a known cause. -/
theorem foldlM {step : β → α → Except Failure β} {good : β → Prop} {xs : List α}
    (each : ∀ b, ∀ x ∈ xs, good b → Ends (step b x) good bad) {b : β} (start : good b) :
    Ends (xs.foldlM step b) good bad := by
  induction xs generalizing b with
  | nil => exact .inl ⟨b, rfl, start⟩
  | cons x xs ih =>
    rw [List.foldlM_cons]
    exact (each b x List.mem_cons_self start).bind fun next kept =>
      ih (fun b other member => each b other (List.mem_cons_of_mem _ member)) kept

theorem ok (ends : Ends step good fun _ => False) : ∃ a, step = .ok a ∧ good a :=
  ends.resolve_right fun ⟨_, _, never⟩ => never

end Ends

end Matchmaking
