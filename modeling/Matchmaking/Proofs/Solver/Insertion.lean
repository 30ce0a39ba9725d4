import Mathlib.Data.List.Induction
import Mathlib.Data.List.Infix
import Matchmaking.Proofs.Number.Nearness
import Matchmaking.Proofs.Solver.Reading

/-! What the reading of a text leaves out. Variables that are not known are left out of the selection and
nothing else changes, except that there may be nothing left to read; and behind the heading a line makes a difference
only if it shows a known variable with a value near one. -/
namespace Matchmaking

/-- Leaving texts out and leaving repetitions out can be done in any order. -/
theorem Text.distinct_filter (keep : String → Bool) (texts : List String) :
    distinct (texts.filter keep) = (distinct texts).filter keep := by
  induction texts using List.reverseRecOn with
  | nil => rfl
  | append_singleton texts s ih =>
    rw [List.filter_append, distinct_concat]
    by_cases kept : keep s = true
    · rw [List.filter_singleton, kept, Bool.cond_true, distinct_concat, ih]
      by_cases before : s ∈ texts
      · simp [before, kept]
      · simp [before, kept]
    · by_cases before : s ∈ texts
      · simp [before, kept, ih]
      · simp [before, kept, ih]

namespace Listing

variable {ids : List String}

/-- A numeral counts as one just if the double that it is read as is near one. -/
theorem isOne_iff {token : List Char} :
    isOne token = true ↔ ∃ x, Numeral.readReal? (String.ofList token) = some x ∧ x.NearOne := by
  unfold isOne
  cases read : Numeral.readReal? (String.ofList token) with
  | none => simp
  | some x =>
    dsimp only
    rw [Binary64.lt_millionth_iff (Numeral.isDouble_of_readReal? read)]
    simp

def ShowsOne (ids : List String) (line : List Char) : Prop := ∃ id ∈ ids, ∃ value x,
  Text.fields line = [id.toList, value] ∧ Numeral.readReal? (String.ofList value) = some x ∧ x.NearOne

theorem showsOne_of_selectedOn? {line : List Char} {name : String} (selected : selectedOn? line = some name)
    (known : name ∈ ids) : ShowsOne ids line := by
  obtain ⟨value, split, -, one⟩ := selectedOn?_eq_some.mp selected
  obtain ⟨x, read, near⟩ := isOne_iff.mp one
  exact ⟨name, known, value, x, split, read, near⟩

theorem selected_known (ids : List String) (s : List Char) :
    selected (some (.of ((ids.map Value.text).map (·, ())))) s = (selected none s).filter (· ∈ ids) := by
  have has (name : String) : (Lookup.of ((ids.map Value.text).map (·, ()))).has (.text name) = decide (name ∈ ids) := by
    apply Bool.eq_iff_iff.mpr
    rw [Lookup.has_of, Keyed.has_iff]
    simp [Keyed.keys, Value.same_text_iff, Value.text?]
  simp only [selected, has, Text.distinct_filter]

/-- With some variables left out a verdict stays the same, unless nothing is left to read. -/
theorem verdict_filter (said : List (List Char)) (headed : Bool) (names : List String) (keep : String → Bool) :
    ∃ status found, verdict said headed names = (status, found) ∧ verdict said headed (names.filter keep) =
      (if status = .optimal ∧ headed = false ∧ found.filter keep = [] then .unknown else status,
        found.filter keep) := by
  unfold verdict
  split
  · exact ⟨_, _, rfl, by simp⟩
  · split
    · exact ⟨_, _, rfl, by simp⟩
    · split
      · rename_i nothing
        obtain ⟨bare, none⟩ : headed = false ∧ names = [] := by simpa using nothing
        exact ⟨_, _, rfl, by simp [bare, none]⟩
      · rename_i something
        refine ⟨_, _, rfl, ?_⟩
        cases headed with
        | true => simp
        | false =>
          cases left : names.filter keep with
          | nil => simp
          | cons => simp

/-- Whether a text has one more line than another, somewhere behind a line with the heading. -/
def Inserted (line : List Char) (s t : String) : Prop := ∃ front back,
  Text.lines s.toList = front ++ back ∧ Text.lines t.toList = front ++ line :: back ∧
    ∃ headed ∈ front, header.toList <:+: Text.lowercase headed

theorem inserted_of_joined {line : List Char} {front : List (List Char)} (rest : List Char)
    (single : ∀ l ∈ front, Text.IsLine l) (whole : Text.IsLine line)
    (headed : ∃ l ∈ front, header.toList <:+: Text.lowercase l) :
    Inserted line (String.ofList (Text.joined front ++ rest))
      (String.ofList (Text.joined front ++ (line ++ '\n' :: rest))) := by
  refine ⟨front, Text.lines rest, ?_, ?_, headed⟩
  · rw [String.toList_ofList, Text.lines_joined_append single]
  · rw [String.toList_ofList, Text.lines_joined_append single, Text.lines_line whole rfl (by decide)]

/-- One more line behind the heading makes no difference unless it shows a known variable with a value near one. -/
theorem Inserted.read {line : List Char} {s t : String} (inserted : Inserted line s t) {known : Value}
    (usable : known.traverse Value.asKey = .ok (ids.map .text)) (other : ¬ShowsOne ids line) :
    Listing.read t (some known) = Listing.read s (some known) := by
  obtain ⟨front, back, first, second, headed⟩ := inserted
  obtain ⟨lines, found⟩ := Prod.mk.inj ((said_of_lines first headed).trans (said_of_lines second headed).symm)
  have silent : ([line].filterMap selectedOn?).filter (· ∈ ids) = [] := by
    cases selected : selectedOn? line with
    | none => simp [selected]
    | some name =>
      have unknown : name ∉ ids := fun known => other (showsOne_of_selectedOn? selected known)
      simp [selected, unknown]
  have same : selected (some (.of ((ids.map Value.text).map (·, ())))) s.toList =
      selected (some (.of ((ids.map Value.text).map (·, ())))) t.toList := by
    rw [selected_known, selected_known, selected, selected, ← Text.distinct_filter, ← Text.distinct_filter,
      first, second, List.append_cons]
    simp only [List.filterMap_append, List.filter_append, silent, List.append_nil]
  rw [← String.ofList_toList (s := s), ← String.ofList_toList (s := t), read_keys _ usable, read_keys _ usable, lines,
    found, same]

/-- Every text is read, for known variables as well as for all. Of all that are found the known ones are left, in
their order and each once, and the status is the same unless the text has no heading and nothing is left. Behind
the heading only lines count that show a known variable with a value near one. -/
theorem read_filters (text : String) {known : Value} (usable : known.traverse Value.asKey = .ok (ids.map .text)) :
    ∃ status found left, read text none = .ok (status, found) ∧ read text (some known) =
        .ok (if status = .optimal ∧ ¬header.toList <:+: Text.lowercase text.toList ∧ left = [] then .unknown
          else status, left) ∧
      left = found.filter (· ∈ ids) ∧ left.Nodup ∧
      ∀ line other, Inserted line text other → ¬ShowsOne ids line →
        read other (some known) = read text (some known) := by
  have headed : (before header.toList (Text.lowercase text.toList)).2 = false ↔
      ¬header.toList <:+: Text.lowercase text.toList := by
    rw [← before_found (by decide), Bool.not_eq_true]
  obtain ⟨status, found, all, restricted⟩ := verdict_filter
    (Text.lines (before header.toList (Text.lowercase text.toList)).1)
    (before header.toList (Text.lowercase text.toList)).2 (selected none text.toList) (· ∈ ids)
  have reads : read text none = .ok (status, found) := by
    rw [← String.ofList_toList (s := text), read_any]
    exact congrArg Except.ok all
  refine ⟨status, found, found.filter (· ∈ ids), reads, ?_, rfl, ?_, fun line other inserted => inserted.read usable⟩
  · conv_lhs => rw [← String.ofList_toList (s := text), read_keys _ usable, selected_known, restricted]
    simp only [headed]
  · rcases verdict_ends _ _ _ with whole | ⟨_, -, nothing⟩
    · cases all.symm.trans whole
      exact (nodup_selected _ _).filter _
    · cases all.symm.trans nothing
      exact List.nodup_nil

/-- A row that is echoed with the value one is not read as the variable above it. -/
theorem read_filters_of_row : ∃ text other, Inserted "count0 1".toList text other ∧
    read text (some (.list [.text "v0"])) = .ok (.optimal, ["v0"]) ∧
      read other (some (.list [.text "v0"])) = .ok (.optimal, ["v0"]) := by
  let front := ["Actual values of the variables:".toList, "v0 1".toList]
  let text := String.ofList (Text.joined front ++ [])
  have single : ∀ l ∈ front, Text.IsLine l := fun l member => by
    rcases List.mem_pair.mp member with rfl | rfl <;> exact Text.isLine_iff.mpr (by decide +kernel)
  have inserted : Inserted "count0 1".toList text _ := inserted_of_joined [] single
    (Text.isLine_iff.mpr (by decide +kernel)) ⟨_, List.mem_cons_self, by decide +kernel⟩
  have row : ¬ShowsOne ["v0"] "count0 1".toList := by
    rintro ⟨id, member, value, x, split, -⟩
    have fields : Text.fields "count0 1".toList = ["count0".toList, "1".toList] := by decide +kernel
    rw [List.mem_singleton.mp member, fields] at split
    cases split
  have first : read text none = .ok (.optimal, ["v0"]) := by
    have start : before header.toList (Text.lowercase text.toList) = ([], true) := by decide +kernel
    have shown : (Text.lines text.toList).filterMap selectedOn? = ["v0"] := by decide +kernel
    have names : selected none text.toList = ["v0"] := by
      rw [selected, shown]
      exact Text.distinct_of_nodup (by simp)
    have reads := read_any text.toList
    rw [String.ofList_toList, start, names] at reads
    exact reads
  obtain ⟨status, found, left, all, known, kept, -, unmoved⟩ :=
    read_filters text (show (Value.list [.text "v0"]).traverse Value.asKey = .ok (["v0"].map .text) from rfl)
  cases first.symm.trans all
  rw [show left = ["v0"] from kept, if_neg (by rintro ⟨-, -, ⟨⟩⟩)] at known
  exact ⟨text, _, inserted, known, (unmoved _ _ inserted row).trans known⟩

end Listing

end Matchmaking
