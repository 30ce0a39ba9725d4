import Mathlib.Algebra.BigOperators.Group.List.Basic
import Mathlib.Data.List.Forall2
import Matchmaking.Space.Product

/-! The rows of a product: one item of each axis, every row once if no axis repeats an item.
Restricting axes is filtering rows in place: the order of the enumeration is kept. -/
namespace Matchmaking

variable {α ι : Type}

theorem mem_choices {axes : List (List α)} {row : List α} :
    row ∈ choices axes ↔ List.Forall₂ (· ∈ ·) row axes := by
  induction axes generalizing row with
  | nil => simp
  | cons axis rest ih =>
    rw [mem_choices_cons]
    constructor
    · rintro ⟨item, member, others, found, rfl⟩
      exact .cons member (ih.mp found)
    · intro related
      cases related with
      | cons member others => exact ⟨_, member, _, ih.mpr others, rfl⟩

theorem length_choices (axes : List (List α)) :
    (choices axes).length = (axes.map List.length).prod := by
  induction axes with
  | nil => rfl
  | cons axis rest ih => simp [choices, List.length_flatMap, ih]

theorem nodup_choices {axes : List (List α)} (single : ∀ axis ∈ axes, axis.Nodup) :
    (choices axes).Nodup := by
  induction axes with
  | nil => simp
  | cons axis rest ih =>
    have others := ih fun other member => single other (List.mem_cons_of_mem _ member)
    have items := single axis List.mem_cons_self
    rw [choices, List.nodup_iff_pairwise_ne, List.pairwise_flatMap]
    refine ⟨fun item _ => ?_, (List.nodup_iff_pairwise_ne.mp items).imp ?_⟩
    · rw [List.pairwise_map]
      exact others.imp fun different equal => different (List.cons.inj equal).2
    · intro a b different first left second right equal
      obtain ⟨_, _, rfl⟩ := List.mem_map.mp left
      obtain ⟨_, _, rfl⟩ := List.mem_map.mp right
      exact different (List.cons.inj equal).1

/-- Without an item on some axis there is no choice. -/
theorem choices_eq_nil {axes : List (List α)} (closed : axes.any List.isEmpty = true) :
    choices axes = [] := by
  induction axes with
  | nil => simp at closed
  | cons axis rest ih =>
    rcases (by simpa using closed : axis = [] ∨ ∃ other ∈ rest, other = []) with rfl | other
    · rfl
    · simp [choices, ih (by simpa using other)]

theorem tuples_eq_choices {axes : List (List α)} (some : axes ≠ []) : tuples axes = choices axes := by
  unfold tuples
  split
  · rename_i closed
    rw [choices_eq_nil]
    simpa [some] using closed
  · rfl

@[simp] theorem tuples_nil : tuples ([] : List (List α)) = [] := rfl

theorem mem_tuples {axes : List (List α)} {row : List α} :
    row ∈ tuples axes ↔ axes ≠ [] ∧ List.Forall₂ (· ∈ ·) row axes := by
  by_cases some : axes = []
  · simp [some]
  · simp [tuples_eq_choices some, mem_choices, some]

theorem nodup_tuples {axes : List (List α)} (single : ∀ axis ∈ axes, axis.Nodup) :
    (tuples axes).Nodup := by
  by_cases some : axes = []
  · simp [some]
  · rw [tuples_eq_choices some]; exact nodup_choices single

/-- Rows over narrowed axes are the rows with an enlisted item on every axis. -/
theorem choices_filter (admits : ι → α → Bool) (axis : ι → List α) (places : List ι) :
    choices (places.map fun i => (axis i).filter (admits i)) =
      (choices (places.map axis)).filter fun row =>
        (places.zip row).all fun (i, item) => admits i item := by
  induction places with
  | nil => rfl
  | cons i rest ih =>
    simp only [List.map_cons, choices, ih, List.filter_flatMap]
    induction axis i with
    | nil => rfl
    | cons item items again =>
      by_cases enlisted : admits i item = true
      · simp [enlisted, again, List.filter_map, Function.comp_def]
      · simp [enlisted, again, List.filter_map, Function.comp_def]

theorem tuples_filter (admits : ι → α → Bool) (axis : ι → List α) (places : List ι) :
    tuples (places.map fun i => (axis i).filter (admits i)) =
      (tuples (places.map axis)).filter fun row =>
        (places.zip row).all fun (i, item) => admits i item := by
  by_cases some : places = []
  · simp [some]
  · rw [tuples_eq_choices (by simpa using some), tuples_eq_choices (by simpa using some), choices_filter]

end Matchmaking
