import Matchmaking.Library.Scaled
import Matchmaking.Proofs.Problem.Laws

/-! The library for whole coefficients that keeps what it is given keeps the laws, whatever its solver answers. -/
namespace Matchmaking.ScaledModel

def worth (terms : Expression) (σ : Variable → Bool) : Int :=
  (terms.map fun (x, c) => if σ x then c else 0).sum

theorem worth_flatten (expressions : List Expression) (σ : Variable → Bool) :
    worth expressions.flatten σ = (expressions.map (worth · σ)).sum := by
  rw [worth, List.map_flatten, List.sum_flatten, List.map_map]
  rfl

theorem worth_once (x : Variable) (c : Int) (σ : Variable → Bool) : worth [(x, c)] σ = if σ x then c else 0 := by
  simp [worth]

def Row.Holds (row : Row) (σ : Variable → Bool) : Prop :=
  match row with
  | .linear terms operator target => operator.holds (worth terms σ) target = true
  | .truth holds => holds = true

def Satisfied (m : ScaledModel) (σ : Variable → Bool) : Prop := ∀ row ∈ m.rows.toList.map (·.2), Row.Holds row σ

def sense (answer : Option ScaledAnswer) : (library answer).Sense where
  worth := worth
  Holds := Row.Holds
  Satisfied := Satisfied
  cost m := worth m.objective
  HasVariable m x := m.labels[x.place]? = some x.label

variable {answer : Option ScaledAnswer}

theorem relate_ok (op : Operator) (terms : Expression) {target : Int} (small : target.natAbs ≤ 2 ^ 53) :
    relate op terms target = .ok (.linear terms op target) := by
  have low : least = -9223372036854775808 := by decide
  have high : greatest = 9223372036854775807 := by decide
  have fitting : fits target = true := by
    rw [fits, low, high, Bool.and_eq_true, decide_eq_true_eq, decide_eq_true_eq]
    omega
  have inside : target ≠ least ∧ target ≠ greatest := by omega
  cases op <;> simp [relate, fitting, inside]

theorem satisfied_of_rows {m next : ScaledModel} (rows : next.rows = m.rows) (σ : Variable → Bool) :
    next.Satisfied σ ↔ m.Satisfied σ := by rw [Satisfied, Satisfied, rows]

theorem satisfied_push (row : Row) (m : ScaledModel) (σ : Variable → Bool) :
    (m.push row).Satisfied σ ↔ m.Satisfied σ ∧ row.Holds σ := by
  rw [Satisfied, push, Array.toList_push, List.map_append, List.forall_mem_append, List.map_singleton,
    List.forall_mem_singleton, Satisfied]

theorem push_extends (row : Row) (m : ScaledModel) : (sense answer).Extends m (m.push row) row.Holds :=
  ⟨satisfied_push row m, fun _ => rfl, fun _ => Iff.rfl⟩

theorem satisfied_named {s : String} {m next : ScaledModel} (named : nameLast (.text s) m = .ok next)
    (σ : Variable → Bool) : next.Satisfied σ ↔ m.Satisfied σ := by
  cases named
  have rows : (m.rows.modify (m.rows.size - 1) fun entry => (Label.text s, entry.2)).toList.map (·.2) =
      m.rows.toList.map (·.2) := by
    rw [Array.toList_modify]
    refine List.ext_getElem? fun place => ?_
    simp only [List.getElem?_map, List.getElem?_modify]
    cases m.rows.toList[place]? with
    | none => rfl
    | some entry => split <;> rfl
  rw [Satisfied, Satisfied, ← rows]

theorem newBool_ok (s : String) (m : ScaledModel) : ∃ x next, newBool (.text s) m = .ok (x, next) ∧
    next.rows = m.rows ∧ next.objective = m.objective ∧ m.labels[x.place]? ≠ some x.label ∧
    ∀ y : Variable, next.labels[y.place]? = some y.label ↔ y = x ∨ m.labels[y.place]? = some y.label := by
  refine ⟨⟨m.labels.size, .text s⟩, _, rfl, rfl, rfl, by simp, fun y => ?_⟩
  obtain ⟨place, label⟩ := y
  simp only [Array.getElem?_push, Variable.mk.injEq]
  split
  · rename_i last
    simp [last, eq_comm]
  · rename_i other
    simp [other]

theorem lawful (answer : Option ScaledAnswer) : (sense answer).Lawful where
  blank_satisfied σ row member := by simp [library] at member
  blank_cost σ := rfl
  newBool_ok s m := by
    obtain ⟨x, next, made, rows, objective, fresh, present⟩ := newBool_ok s m
    exact ⟨x, next, made, fresh, present, satisfied_of_rows rows, fun σ => congrArg (worth · σ) objective⟩
  worth_single x σ := worth_once x 1 σ
  times_ok c x _ := ⟨_, rfl, fun σ => worth_once x c σ⟩
  sum_singles xs σ _ := worth_flatten _ σ
  sum_products terms es σ _ _ _ _ := worth_flatten es σ
  relate_ok op xs target _ small := ⟨_, relate_ok op _ small, fun _ => Iff.rfl⟩
  addRow_ok op xs target r m _ _ := ⟨_, rfl, push_extends r m⟩
  addTruth_ok holds m := push_extends (.truth holds) m
  addAny_nil m := by
    have pushed : (sense answer).Extends m (m.push (.truth false)) _ := push_extends (.truth false) m
    refine ⟨fun σ => (pushed.satisfied σ).trans ?_, pushed.cost, pushed.hasVariable⟩
    exact and_congr_right fun _ => iff_of_false Bool.false_ne_true id
  nameLast_ok s m _ := ⟨_, rfl, fun σ => (satisfied_named rfl σ).trans (and_true _).symm.to_iff, fun _ => rfl,
    fun _ => Iff.rfl⟩
  minimize_ok terms es m _ _ _ _ _ := ⟨_, rfl, fun _ => rfl, fun _ => Iff.rfl⟩

end Matchmaking.ScaledModel
