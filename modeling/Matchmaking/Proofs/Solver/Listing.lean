import Matchmaking.Proofs.Solver.Reading

/-! Reading a whole listing back: a preamble, a line for every variable in some order and a line
for every row. What is read are the variables shown with the value one; neither the preamble nor
the values of rows add any. -/
namespace Matchmaking.Listing

/-- A listing, line by line; the headings stand between the parts. -/
structure Parts where
  preamble : List (List Char)
  values : List (List Char)
  rows : List (List Char)

namespace Parts

def variablesHeading : List Char := "Actual values of the variables:".toList

def rowsHeading : List Char := "Actual values of the constraints:".toList

def lines (parts : Parts) : List (List Char) :=
  parts.preamble ++ variablesHeading :: (parts.values ++ rowsHeading :: parts.rows)

def output (parts : Parts) : List Char := Text.joined parts.lines

def Names (name : String) (line : List Char) : Prop := ∃ value, Text.fields line = [name.toList, value]

/-- A line with a variable and a value that reads as one just if the variable is chosen. -/
def Values (chosen : String → Bool) (id : String) (line : List Char) : Prop :=
  ∃ value, Text.fields line = [id.toList, value] ∧ isOne value = chosen id

/-- A listing shows a choice among variables. Before the values nothing is said of the status and
no line starts with a variable. Each variable and each row has one line, wherever it stands, and
rows are shown with any values. -/
structure Shows (parts : Parts) (ids : List String) (chosen : String → Bool) (names : List String) : Prop where
  single : ∀ line ∈ parts.preamble ++ parts.values ++ parts.rows, Text.IsLine line
  silent : ∀ line ∈ parts.preamble, ¬infeasibleSentence.toList <:+: Text.lowercase line ∧
    ¬unboundedSentence.toList <:+: Text.lowercase line
  apart : ∀ line ∈ parts.preamble, ∀ id ∈ ids, (Text.fields line).head? ≠ some id.toList
  values : ∃ order, order.Perm ids ∧ List.Forall₂ (Values chosen) order parts.values
  rows : ∃ order, order.Perm names ∧ List.Forall₂ Names order parts.rows

variable {parts : Parts} {ids names : List String} {chosen : String → Bool}

theorem Shows.lines (shows : parts.Shows ids chosen names) : ∀ line ∈ parts.lines, Text.IsLine line := by
  intro line member
  have heading : Text.IsLine variablesHeading := Text.isLine_iff.mpr (by decide +kernel)
  have heading' : Text.IsLine rowsHeading := Text.isLine_iff.mpr (by decide +kernel)
  have single := shows.single
  simp only [Parts.lines, List.mem_append, List.mem_cons] at member
  simp only [List.mem_append] at single
  rcases member with early | rfl | listed | rfl | row
  · exact single line (.inl (.inl early))
  · exact heading
  · exact single line (.inl (.inr listed))
  · exact heading'
  · exact single line (.inr row)

theorem rearranged (single : ∀ line ∈ parts.lines, Text.IsLine line) (back : List (List Char))
    (same : ∀ line, line ∈ parts.values ++ rowsHeading :: parts.rows ↔ line ∈ back) :
    Rearranged (String.ofList parts.output)
      (String.ofList (Text.joined (parts.preamble ++ [variablesHeading] ++ back))) := by
  have split : parts.lines = parts.preamble ++ [variablesHeading] ++ (parts.values ++ rowsHeading :: parts.rows) := by
    simp [lines]
  rw [split] at single
  have single' : ∀ line ∈ parts.preamble ++ [variablesHeading] ++ back, Text.IsLine line := by
    simpa only [List.mem_append, ← same] using single
  refine ⟨parts.preamble ++ [variablesHeading], parts.values ++ rowsHeading :: parts.rows, back, ?_, ?_,
    ⟨variablesHeading, by simp, by decide +kernel⟩, fun line _ => same line⟩
  · rw [String.toList_ofList, output, split, Text.lines_joined single]
  · rw [String.toList_ofList, Text.lines_joined single']

end Parts

theorem sentence_unsaid {said : String} {ls : List (List Char)} {s : List Char} (some : said.toList ≠ [])
    (single : '\n' ∉ said.toList) (silent : ∀ line ∈ ls, ¬said.toList <:+: line) (early : s <+: Text.joined ls) :
    ((Text.lines s).map sentence).contains said = false := by
  rw [Bool.eq_false_iff]
  intro held
  obtain ⟨line, member, same⟩ := List.mem_map.mp (List.contains_iff_mem.mp held)
  have inside : said.toList <:+: line := by
    rw [← same, sentence, String.toList_ofList]
    exact (Text.trimEnd_part _ _).trans (Text.trim_part _ _)
  have whole := (inside.trans (Text.infix_of_mem_lines member)).trans early.isInfix
  obtain ⟨other, listed, contained⟩ := Text.infix_of_joined some single whole
  exact silent other listed contained

/-- In small letters the heading of the variables stands behind the preamble. -/
theorem lowercase_output (parts : Parts) : ∃ back, Text.lowercase parts.output =
    Text.joined (parts.preamble.map Text.lowercase) ++ (header.toList ++ back) := by
  have heading : Text.lowercase Parts.variablesHeading = header.toList ++ [':'] := by decide +kernel
  rw [Parts.output, Parts.lines, Text.joined_append, Text.lowercase_joined, Text.joined_cons,
    Text.lowercase_line rfl, heading]
  exact ⟨_, by rw [List.append_assoc]⟩

variable {parts : Parts} {ids names : List String} {chosen : String → Bool}

theorem mem_selectedOn? (form : ∀ id ∈ ids, Identifier.hasForm id = true)
    (apart : ∀ name ∈ names, Identifier.hasForm name = false) (shows : parts.Shows ids chosen names) {id : String}
    (known : id ∈ ids) : id ∈ parts.lines.filterMap selectedOn? ↔ chosen id = true := by
  obtain ⟨order, same, shown⟩ := shows.values
  obtain ⟨order', same', named⟩ := shows.rows
  rw [List.mem_filterMap]
  constructor
  · rintro ⟨line, member, selected⟩
    obtain ⟨value, split, isForm, one⟩ := selectedOn?_eq_some.mp selected
    simp only [Parts.lines, List.mem_append, List.mem_cons] at member
    rcases member with early | rfl | listed | rfl | row
    · exact absurd (by rw [split]; rfl) (shows.apart line early id known)
    · have words : (Text.fields Parts.variablesHeading).length = 5 := by decide +kernel
      rw [split] at words
      cases words
    · obtain ⟨other, -, value', split', reads⟩ := exists_of_mem_right shown listed
      rw [split'] at split
      obtain ⟨equal, rest⟩ := List.cons.inj split
      rw [String.toList_inj.mp equal, List.head_eq_of_cons_eq rest, one] at reads
      exact reads.symm
    · have words : (Text.fields Parts.rowsHeading).length = 5 := by decide +kernel
      rw [split] at words
      cases words
    · obtain ⟨name, listed, value', split'⟩ := exists_of_mem_right named row
      rw [split'] at split
      rw [← String.toList_inj.mp (List.head_eq_of_cons_eq split), apart name (same'.mem_iff.mp listed)] at isForm
      cases isForm
  · intro holds
    obtain ⟨line, listed, value, split, reads⟩ := exists_of_mem_right shown.flip (same.mem_iff.mpr known)
    refine ⟨line, ?_, selectedOn?_eq_some.mpr ⟨value, split, form id known, reads.trans holds⟩⟩
    simp [Parts.lines, listed]

theorem read_shows (nodup : ids.Nodup) (form : ∀ id ∈ ids, Identifier.hasForm id = true)
    (apart : ∀ name ∈ names, Identifier.hasForm name = false) (shows : parts.Shows ids chosen names) :
    ∃ found, read (String.ofList parts.output) (some (.list (ids.map .text))) = .ok (.optimal, found) ∧
      found.Perm (ids.filter chosen) := by
  obtain ⟨back, lowered⟩ := lowercase_output parts
  obtain ⟨first, cut, early⟩ :=
    before_append header.toList (Text.joined (parts.preamble.map Text.lowercase)) back
  have feasible : ((Text.lines first).map sentence).contains infeasibleSentence = false :=
    sentence_unsaid (by decide) (by decide) (by simpa using fun line member => (shows.silent line member).1) early
  have bounded : ((Text.lines first).map sentence).contains unboundedSentence = false :=
    sentence_unsaid (by decide) (by decide) (by simpa using fun line member => (shows.silent line member).2) early
  refine ⟨selected (some (.of ((ids.map Value.text).map (·, ())))) parts.output, ?_, ?_⟩
  · rw [read_known, lowered, cut, verdict, feasible, bounded]
    rfl
  · refine (List.perm_ext_iff_of_nodup (nodup_selected _ _) (nodup.filter _)).mpr fun id => ?_
    rw [mem_selected, Parts.output, Text.lines_joined shows.lines, List.mem_filter]
    exact and_congr_right fun known => mem_selectedOn? form apart shows known

end Matchmaking.Listing
