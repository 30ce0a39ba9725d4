import Mathlib.Data.List.Forall2
import Matchmaking.Proofs.Success

/-! Steps that may fail and leave a state either way. Their outcome is the answer or the failure
together with the state; an outcome of a sequence is found step by step. -/
namespace Matchmaking.Stateful

variable {σ α β : Type} {s : σ}

/-- The answer or the failure of a step, and the state it leaves. -/
def outcome (step : ExceptT Failure (StateM σ) α) (s : σ) : Except Failure α × σ := step.run.run s

@[simp] theorem outcome_pure (a : α) : outcome (pure a) s = (.ok a, s) := rfl

@[simp] theorem outcome_throw (failure : Failure) :
    outcome (throw failure : ExceptT Failure (StateM σ) α) s = (.error failure, s) := rfl

@[simp] theorem outcome_get : outcome (get : ExceptT Failure (StateM σ) σ) s = (.ok s, s) := rfl

@[simp] theorem outcome_set (other : σ) :
    outcome (set other : ExceptT Failure (StateM σ) PUnit) s = (.ok ⟨⟩, other) := rfl

@[simp] theorem outcome_modify (change : σ → σ) :
    outcome (modify change : ExceptT Failure (StateM σ) PUnit) s = (.ok ⟨⟩, change s) := rfl

@[simp] theorem outcome_lift (found : Except Failure α) :
    outcome (liftM found : ExceptT Failure (StateM σ) α) s = (found, s) := rfl

/-- Of what is known there is nothing to lift. -/
theorem liftM_ok (a : α) : (liftM (Except.ok a : Except Failure α) : ExceptT Failure (StateM σ) α) = pure a := rfl

theorem outcome_bind (step : ExceptT Failure (StateM σ) α) (rest : α → ExceptT Failure (StateM σ) β) :
    outcome (step >>= rest) s = match outcome step s with
      | (.ok a, mid) => outcome (rest a) mid
      | (.error failure, mid) => (.error failure, mid) := by
  unfold outcome
  rw [ExceptT.run_bind, StateT.run_bind]
  change (match step.run.run s with | (result, mid) => _) = _
  rcases step.run.run s with ⟨_ | _, mid⟩ <;> rfl

theorem outcome_bind_ok {step : ExceptT Failure (StateM σ) α} {rest : α → ExceptT Failure (StateM σ) β} {b : β}
    {t : σ} : outcome (step >>= rest) s = (.ok b, t) ↔
      ∃ a mid, outcome step s = (.ok a, mid) ∧ outcome (rest a) mid = (.ok b, t) := by
  rw [outcome_bind]
  rcases outcome step s with ⟨failure | a, mid⟩
  · simp
  · constructor
    · exact fun last => ⟨a, mid, rfl, last⟩
    · rintro ⟨_, _, ⟨⟩, last⟩
      exact last

theorem outcome_bind_error {step : ExceptT Failure (StateM σ) α} {rest : α → ExceptT Failure (StateM σ) β}
    {failure : Failure} {t : σ} : outcome (step >>= rest) s = (.error failure, t) ↔
      outcome step s = (.error failure, t) ∨
        ∃ a mid, outcome step s = (.ok a, mid) ∧ outcome (rest a) mid = (.error failure, t) := by
  rw [outcome_bind]
  rcases outcome step s with ⟨other | a, mid⟩
  · simp
  · constructor
    · exact fun last => .inr ⟨a, mid, rfl, last⟩
    · rintro (⟨⟨⟩⟩ | ⟨_, _, ⟨⟩, last⟩)
      exact last

theorem outcome_return (f : α → β) (step : ExceptT Failure (StateM σ) α) :
    (outcome (do return f (← step)) s).2 = (outcome step s).2 := by
  rw [outcome_bind]
  rcases outcome step s with ⟨_ | _, mid⟩ <;> rfl

theorem mapM_return {γ : Type} {m : Type → Type} [Monad m] [LawfulMonad m] (f : β → γ) (step : α → m β) (xs : List α) :
    (xs.mapM fun x => do return f (← step x)) = do return (← xs.mapM step).map f := by
  induction xs with
  | nil => simp
  | cons x xs ih => simp only [List.mapM_cons, ih, bind_assoc, pure_bind, List.map_cons]

/-- A list of steps fails just if one of them does behind others that succeed. The steps behind it are not made. -/
theorem outcome_mapM_error {f : α → ExceptT Failure (StateM σ) β} {xs : List α} {failure : Failure} {t : σ} :
    outcome (xs.mapM f) s = (.error failure, t) ↔ ∃ before x after answers mid, xs = before ++ x :: after ∧
      outcome (before.mapM f) s = (.ok answers, mid) ∧ outcome (f x) mid = (.error failure, t) := by
  induction xs generalizing s with
  | nil => simp [outcome_pure]
  | cons x xs ih =>
    rw [List.mapM_cons, outcome_bind_error]
    constructor
    · rintro (here | ⟨answer, mid, first, later⟩)
      · exact ⟨[], x, xs, [], s, rfl, rfl, here⟩
      · rcases outcome_bind_error.mp later with there | ⟨_, _, -, ⟨⟩⟩
        obtain ⟨before, y, after, answers, mid', rfl, made, failed⟩ := ih.mp there
        refine ⟨x :: before, y, after, answer :: answers, mid', rfl, ?_, failed⟩
        rw [List.mapM_cons]
        exact outcome_bind_ok.mpr ⟨answer, mid, first, outcome_bind_ok.mpr ⟨answers, mid', made, rfl⟩⟩
    · rintro ⟨before, y, after, answers, mid, split, made, failed⟩
      cases before with
      | nil =>
        cases split
        cases made
        exact .inl failed
      | cons z before =>
        cases split
        rw [List.mapM_cons] at made
        obtain ⟨answer, mid', first, made⟩ := outcome_bind_ok.mp made
        obtain ⟨answers', last, others, made⟩ := outcome_bind_ok.mp made
        cases made
        exact .inr ⟨answer, mid', first, outcome_bind_error.mpr
          (.inl (ih.mpr ⟨before, y, after, answers', mid, rfl, others, failed⟩))⟩

theorem decides_bind {step : ExceptT Failure (StateM σ) α} {rest : α → ExceptT Failure (StateM σ) β} {P Q : Prop}
    {bad : Failure → Prop} (first : Decides (outcome step s).1 P bad)
    (others : ∀ a t, outcome step s = (.ok a, t) → Decides (outcome (rest a) t).1 Q bad) :
    Decides (outcome (step >>= rest) s).1 (P ∧ Q) bad := by
  rw [outcome_bind]
  rcases found : outcome step s with ⟨failure | a, t⟩ <;> rw [found] at first
  · rcases first with ⟨-, _, ⟨⟩⟩ | ⟨not, _, ⟨⟩, cause⟩
    exact .inr ⟨fun both => not both.1, failure, rfl, cause⟩
  · rcases first with ⟨holds, -⟩ | ⟨-, _, ⟨⟩, -⟩
    exact (others a t found).congr (and_iff_right holds).symm

theorem decides_bind_return {step : ExceptT Failure (StateM σ) α} {f : α → β} {P : Prop} {bad : Failure → Prop}
    (first : Decides (outcome step s).1 P bad) : Decides (outcome (do return f (← step)) s).1 P bad := by
  refine (decides_bind (Q := True) first fun a t _ => ?_).congr (and_iff_left trivial)
  exact Decides.ok

/-- A list of steps, where what stands for the steps that are left is kept by each of them. -/
theorem decides_mapM {f : α → ExceptT Failure (StateM σ) β} {P : α → Prop} {bad : Failure → Prop}
    {stands : List α → σ → Prop} (each : ∀ x rest s, stands (x :: rest) s → Decides (outcome (f x) s).1 (P x) bad ∧
      ∀ a t, outcome (f x) s = (.ok a, t) → stands rest t) {xs : List α} (start : stands xs s) :
    Decides (outcome (xs.mapM f) s).1 (∀ x ∈ xs, P x) bad := by
  induction xs generalizing s with
  | nil => exact Decides.ok.congr (by simp)
  | cons x rest ih =>
    obtain ⟨first, kept⟩ := each x rest s start
    rw [List.mapM_cons, List.forall_mem_cons]
    exact decides_bind first fun a t made => decides_bind_return (ih (kept a t made))

/-- A step that gives the same answer in every state. -/
def Answers (step : ExceptT Failure (StateM σ) α) (a : α) : Prop := ∀ s, ∃ t, outcome step s = (.ok a, t)

namespace Answers

theorem pure (a : α) : Answers (pure a : ExceptT Failure (StateM σ) α) a := fun s => ⟨s, rfl⟩

theorem modify (change : σ → σ) : Answers (modify change : ExceptT Failure (StateM σ) PUnit) ⟨⟩ :=
  fun s => ⟨change s, rfl⟩

theorem lift {found : Except Failure α} {a : α} (known : found = .ok a) :
    Answers (liftM found : ExceptT Failure (StateM σ) α) a := fun s => ⟨s, by rw [outcome_lift, known]⟩

theorem bind {step : ExceptT Failure (StateM σ) α} {rest : α → ExceptT Failure (StateM σ) β} {a : α} {b : β}
    (first : Answers step a) (others : Answers (rest a) b) : Answers (step >>= rest) b := by
  intro s
  obtain ⟨mid, found⟩ := first s
  obtain ⟨last, answer⟩ := others mid
  exact ⟨last, by rw [outcome_bind, found]; exact answer⟩

theorem unique {step : ExceptT Failure (StateM σ) α} {a b : α} [Inhabited σ] (first : Answers step a)
    (second : Answers step b) : a = b := by
  obtain ⟨_, found⟩ := first default
  obtain ⟨_, found'⟩ := second default
  cases found.symm.trans found'
  rfl

theorem mapM {f : α → ExceptT Failure (StateM σ) β} {xs : List α} {ys : List β}
    (each : List.Forall₂ (fun x y => Answers (f x) y) xs ys) : Answers (xs.mapM f) ys := by
  induction each with
  | nil => exact .pure []
  | cons first _ ih =>
    rw [List.mapM_cons]
    exact first.bind (ih.bind (.pure _))

end Answers

/-- A step that fails for the same cause in every state. -/
def Fails (step : ExceptT Failure (StateM σ) α) (failure : Failure) : Prop :=
  ∀ s, ∃ t, outcome step s = (.error failure, t)

namespace Fails

variable {failure : Failure}

theorem lift {found : Except Failure α} (known : found = .error failure) :
    Fails (liftM found : ExceptT Failure (StateM σ) α) failure := fun s => ⟨s, by rw [outcome_lift, known]⟩

theorem bind {step : ExceptT Failure (StateM σ) α} {rest : α → ExceptT Failure (StateM σ) β}
    (first : Fails step failure) : Fails (step >>= rest) failure := by
  intro s
  obtain ⟨last, found⟩ := first s
  exact ⟨last, by rw [outcome_bind, found]⟩

theorem bind_later {step : ExceptT Failure (StateM σ) α} {rest : α → ExceptT Failure (StateM σ) β} {a : α}
    (first : Answers step a) (later : Fails (rest a) failure) : Fails (step >>= rest) failure := by
  intro s
  obtain ⟨mid, found⟩ := first s
  obtain ⟨last, failed⟩ := later mid
  exact ⟨last, by rw [outcome_bind, found]; exact failed⟩

end Fails

end Matchmaking.Stateful
