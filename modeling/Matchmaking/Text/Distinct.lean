import Std.Data.HashSet.Lemmas

/-! Texts without repetitions, each at its first place. What has been seen is kept in a set. -/
namespace Matchmaking.Text

/-- The texts in a row that have not been seen, each at its first place. -/
def unseen (seen : Std.HashSet String) : List String → List String
  | [] => []
  | s :: rest =>
    if seen.contains s then unseen seen rest else s :: unseen (seen.insert s) rest

theorem mem_unseen {seen : Std.HashSet String} {texts : List String} {s : String} :
    s ∈ unseen seen texts ↔ s ∈ texts ∧ s ∉ seen := by
  induction texts generalizing seen with
  | nil => simp [unseen]
  | cons first rest ih =>
    by_cases h : first ∈ seen
    · simp only [unseen, Std.HashSet.contains_iff_mem, h, if_true, ih, List.mem_cons]
      grind
    · simp only [unseen, Std.HashSet.contains_iff_mem, h, if_false, ih, List.mem_cons,
        Std.HashSet.mem_insert, beq_iff_eq]
      grind

theorem nodup_unseen (seen : Std.HashSet String) (texts : List String) :
    (unseen seen texts).Nodup := by
  induction texts generalizing seen with
  | nil => simp [unseen]
  | cons first rest ih =>
    unfold unseen
    split
    · exact ih seen
    · refine List.nodup_cons.2 ⟨fun h => ?_, ih _⟩
      simpa using (mem_unseen.1 h).2

theorem unseen_concat (seen : Std.HashSet String) (texts : List String) (s : String) :
    unseen seen (texts ++ [s]) =
      if s ∈ seen ∨ s ∈ texts then unseen seen texts else unseen seen texts ++ [s] := by
  induction texts generalizing seen with
  | nil => by_cases h : s ∈ seen <;> simp [unseen, h]
  | cons first rest ih =>
    by_cases h : first ∈ seen
    · have cases : (s ∈ seen ∨ s ∈ rest) ↔ s ∈ seen ∨ s ∈ first :: rest := by grind
      simp only [List.cons_append, unseen, Std.HashSet.contains_iff_mem, h, if_true, ih, cases]
    · have cases : (s ∈ seen.insert first ∨ s ∈ rest) ↔ s ∈ seen ∨ s ∈ first :: rest := by grind
      simp only [List.cons_append, unseen, Std.HashSet.contains_iff_mem, h, if_false, ih, cases]
      split <;> rfl

theorem unseen_of_nodup {seen : Std.HashSet String} {texts : List String} (nodup : texts.Nodup)
    (apart : ∀ s ∈ texts, s ∉ seen) : unseen seen texts = texts := by
  induction texts generalizing seen with
  | nil => rfl
  | cons first rest ih =>
    obtain ⟨other, nodup⟩ := List.nodup_cons.mp nodup
    have fresh := apart first List.mem_cons_self
    simp only [unseen, Std.HashSet.contains_iff_mem, fresh, if_false]
    rw [ih nodup]
    grind

def distinct (texts : List String) : List String := unseen ∅ texts

theorem mem_distinct {texts : List String} {s : String} : s ∈ distinct texts ↔ s ∈ texts := by
  simp [distinct, mem_unseen]

theorem nodup_distinct (texts : List String) : (distinct texts).Nodup := nodup_unseen ∅ texts

theorem distinct_concat (texts : List String) (s : String) :
    distinct (texts ++ [s]) = if s ∈ texts then distinct texts else distinct texts ++ [s] := by
  simp [distinct, unseen_concat]

theorem distinct_of_nodup {texts : List String} (nodup : texts.Nodup) : distinct texts = texts :=
  unseen_of_nodup nodup (by simp)

end Matchmaking.Text
