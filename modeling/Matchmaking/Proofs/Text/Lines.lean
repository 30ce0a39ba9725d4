import Matchmaking.Text.Blank
import Matchmaking.Text.Digit
import Matchmaking.Text.Lowercase

/-! Text that is made of lines. Each line is read as it was written, whichever way it ends, and small
letters are found line by line, as a line ending stands beside no letter. -/
namespace Matchmaking.Text

/-- A text without a line ending in it. -/
def IsLine (s : List Char) : Prop := ∀ c ∈ s, isLineEnd c = false

theorem isLine_iff {s : List Char} : IsLine s ↔ s.any isLineEnd = false := by simp [IsLine]

/-- What ends a line before a text: a carriage return and a line feed together, or one character, if that is
no carriage return in front of a line feed. -/
inductive IsEnding (rest : List Char) : List Char → Prop
  | pair : IsEnding rest ['\r', '\n']
  | single {e : Char} (ending : isLineEnd e = true) (apart : e = '\r' → rest.head? ≠ some '\n') : IsEnding rest [e]

/-- What holds for a line, and for a line, its ending and a text for which it holds, holds for all texts. -/
theorem line_induction {holds : List Char → Prop} (last : ∀ l, IsLine l → holds l)
    (line : ∀ l ending rest, IsLine l → IsEnding rest ending → holds rest → holds (l ++ (ending ++ rest)))
    (s : List Char) : holds s := by
  have empty : IsLine [] := fun _ member => by cases member
  have behind (s before : List Char) (single : IsLine before.reverse) : holds (before.reverse ++ s) := by
    fun_induction lines.go s before with
    | case1 => exact last _ empty
    | case2 before _ =>
      rw [List.append_nil]
      exact last _ single
    | case3 rest before ih => exact line _ _ rest single .pair (ih empty)
    | case4 c rest before other ending ih =>
      refine line _ _ rest single (.single ending ?_) (ih empty)
      intro feed starts
      obtain ⟨later, rfl⟩ := List.head?_eq_some_iff.mp starts
      exact other later feed rfl
    | case5 c rest before _ plain ih =>
      have longer : IsLine (c :: before).reverse := by
        rw [List.reverse_cons]
        exact List.forall_mem_append.mpr ⟨single, by simpa using plain⟩
      simpa using ih longer
  exact behind s [] empty

def joined (ls : List (List Char)) : List Char := ls.flatMap (· ++ ['\n'])

@[simp] theorem joined_nil : joined [] = [] := rfl

@[simp] theorem joined_cons (l : List Char) (rest : List (List Char)) :
    joined (l :: rest) = l ++ '\n' :: joined rest := by simp [joined]

theorem joined_append (ls rest : List (List Char)) : joined (ls ++ rest) = joined ls ++ joined rest := by
  simp [joined]

theorem go_gathers {l : List Char} (single : IsLine l) (s before : List Char) :
    lines.go (l ++ s) before = lines.go s (l.reverse ++ before) := by
  induction l generalizing before with
  | nil => rfl
  | cons c l ih =>
    obtain ⟨plain, others⟩ := List.forall_mem_cons.mp single
    rw [List.cons_append, lines.go]
    · rw [plain, if_neg Bool.false_ne_true, ih others]
      simp
    · intro _ feed
      rw [feed] at plain
      cases plain

theorem go_ending {l ending rest : List Char} (single : IsLine l) (ends : IsEnding rest ending)
    (before : List Char) : lines.go (l ++ (ending ++ rest)) before = (before.reverse ++ l) :: lines.go rest [] := by
  rw [go_gathers single]
  cases ends with
  | pair => simp [lines.go]
  | @single e ending apart =>
    rw [List.singleton_append, lines.go]
    · rw [if_pos ending]
      simp
    · rintro later feed rfl
      exact apart feed rfl

theorem go_line {l : List Char} {e : Char} (single : IsLine l) (ending : isLineEnd e = true) (other : e ≠ '\r')
    (before rest : List Char) : lines.go (l ++ e :: rest) before = (before.reverse ++ l) :: lines.go rest [] :=
  go_ending single (.single ending fun feed => absurd feed other) before

theorem lines_line {l : List Char} {e : Char} (single : IsLine l) (ending : isLineEnd e = true) (other : e ≠ '\r')
    (rest : List Char) : lines (l ++ e :: rest) = l :: lines rest := go_line single ending other [] rest

theorem lines_joined_append {ls : List (List Char)} (single : ∀ l ∈ ls, IsLine l) (rest : List Char) :
    lines (joined ls ++ rest) = ls ++ lines rest := by
  induction ls with
  | nil => rfl
  | cons l others ih =>
    obtain ⟨first, later⟩ := List.forall_mem_cons.mp single
    rw [joined_cons, List.append_assoc, List.cons_append, lines_line first rfl (by decide), ih later]
    rfl

theorem lines_joined {ls : List (List Char)} (single : ∀ l ∈ ls, IsLine l) : lines (joined ls) = ls := by
  have whole := lines_joined_append single []
  rwa [List.append_nil, show lines [] = [] from rfl, List.append_nil] at whole

theorem lines_ending {l ending rest : List Char} (single : IsLine l) (ends : IsEnding rest ending) :
    lines (l ++ (ending ++ rest)) = l :: lines rest := go_ending single ends []

/-- A text without line endings is its only line, if there is anything in it. -/
theorem lines_of_isLine {l : List Char} (single : IsLine l) : lines l = if l = [] then [] else [l] := by
  have gathered := go_gathers single [] []
  rw [List.append_nil, List.append_nil] at gathered
  rw [lines, gathered]
  cases front : l.reverse with
  | nil => simp [List.reverse_eq_nil_iff.mp front, lines.go]
  | cons c rest =>
    have some : l ≠ [] := by
      rintro rfl
      cases front
    rw [lines.go, ← front, List.reverse_reverse, if_neg some]
    exact List.cons_ne_nil c rest

theorem lines_unifyLineEnds (s : List Char) : lines (unifyLineEnds s) = lines s := by
  have go (s before : List Char) : lines.go (unifyLineEnds s) before = lines.go s before := by
    fun_induction lines.go s before with
    | case1 | case2 => simp [unifyLineEnds, lines.go]
    | case3 rest before ih =>
      rw [unifyLineEnds, ← ih]
      simpa using go_line (l := []) (e := '\n') (by simp [IsLine]) rfl (by decide) before (unifyLineEnds rest)
    | case4 c rest before other ending ih =>
      have unified : ∃ e, unifyLineEnds (c :: rest) = e :: unifyLineEnds rest ∧ isLineEnd e = true ∧ e ≠ '\r' := by
        rw [unifyLineEnds]
        · split
          · exact ⟨_, rfl, rfl, by decide⟩
          · exact ⟨c, rfl, ending, ‹_›⟩
        · exact other
      obtain ⟨e, unified, ends, plain⟩ := unified
      rw [unified, ← ih]
      simpa using go_line (l := []) (by simp [IsLine]) ends plain before (unifyLineEnds rest)
    | case5 c rest before other plain ih =>
      have kept : unifyLineEnds (c :: rest) = c :: unifyLineEnds rest := by
        rw [unifyLineEnds]
        · rw [if_neg]
          rintro rfl
          exact plain rfl
        · exact other
      rw [kept, lines.go, if_neg plain, ih]
      rintro _ rfl
      exact absurd rfl plain
  exact go s []

theorem unifyLineEnds_eq {s : List Char} (free : '\r' ∉ s) : unifyLineEnds s = s := by
  fun_induction unifyLineEnds s with
  | case1 => rfl
  | case2 rest ih => simp at free
  | case3 c rest _ ih =>
    obtain ⟨other, free⟩ := not_or.mp (mt List.mem_cons.mpr free)
    rw [ih free, if_neg fun equal => other equal.symm]

theorem unifyLineEnds_joined {ls : List (List Char)} (single : ∀ l ∈ ls, IsLine l) :
    unifyLineEnds (joined ls) = joined ls := by
  apply unifyLineEnds_eq
  intro member
  obtain ⟨l, inside, held⟩ := List.mem_flatMap.mp member
  rcases List.mem_append.mp held with early | last
  · have plain := single l inside _ early
    cases plain
  · cases List.mem_singleton.mp last

theorem infix_of_mem_lines {s line : List Char} (member : line ∈ lines s) : line <:+: s := by
  have parts (s before : List Char) (member : line ∈ lines.go s before) : line <:+: before.reverse ++ s := by
    fun_induction lines.go s before with
    | case1 => cases member
    | case2 before _ =>
      rw [List.mem_singleton.mp member]
      exact (List.prefix_append _ _).isInfix
    | case3 rest before ih =>
      rcases List.mem_cons.mp member with rfl | later
      · exact (List.prefix_append _ _).isInfix
      · exact (ih later).trans ⟨before.reverse ++ ['\r', '\n'], [], by simp⟩
    | case4 c rest before _ ending ih =>
      rcases List.mem_cons.mp member with rfl | later
      · exact (List.prefix_append _ _).isInfix
      · exact (ih later).trans ⟨before.reverse ++ [c], [], by simp⟩
    | case5 c rest before _ plain ih => simpa using ih member
  exact parts s [] member

theorem trimEnd_part (blank : Char → Bool) (s : List Char) : trimEnd blank s <:+: s := by
  have suffix := List.dropWhile_suffix blank (l := s.reverse)
  rw [← List.reverse_prefix, List.reverse_reverse] at suffix
  exact suffix.isInfix

theorem trim_part (blank : Char → Bool) (s : List Char) : trim blank s <:+: s :=
  (trimEnd_part blank _).trans (List.dropWhile_suffix blank).isInfix

theorem infix_of_line {part l rest : List Char} (single : '\n' ∉ part) (inside : part <:+: l ++ '\n' :: rest) :
    part <:+: l ∨ part <:+: rest := by
  obtain ⟨front, back, equal⟩ := inside
  rcases List.append_eq_append_iff.mp equal with ⟨left, rfl, -⟩ | ⟨left, joint, split⟩
  · exact .inl ⟨front, left, rfl⟩
  · rcases left with _ | ⟨c, left⟩
    · rw [List.append_nil] at joint
      exact .inl ⟨front, [], by rw [joint, List.append_nil]⟩
    · obtain ⟨rfl, rfl⟩ := List.cons.inj split
      rcases List.append_eq_append_iff.mp joint with ⟨held, -, whole⟩ | ⟨held, -, whole⟩
      · exact absurd (by simp [whole]) single
      · rcases held with _ | ⟨c, held⟩
        · rw [List.nil_append] at whole
          exact absurd (by simp [← whole]) single
        · obtain ⟨-, rfl⟩ := List.cons.inj whole
          exact .inr ⟨held, back, rfl⟩

theorem infix_of_joined {part : List Char} (some : part ≠ []) (single : '\n' ∉ part) {ls : List (List Char)}
    (inside : part <:+: joined ls) : ∃ l ∈ ls, part <:+: l := by
  induction ls with
  | nil => exact absurd (List.infix_nil.mp inside) some
  | cons l rest ih =>
    rw [joined_cons] at inside
    rcases infix_of_line single inside with here | later
    · exact ⟨l, List.mem_cons_self, here⟩
    · obtain ⟨other, member, held⟩ := ih later
      exact ⟨other, List.mem_cons_of_mem _ member, held⟩

theorem besideLetter_cons (c : Char) (nearby : List Char) : besideLetter (c :: nearby) =
    if inRanges passedRanges c.toNat 0 passedRanges.size = true then besideLetter nearby
    else inRanges casedRanges c.toNat 0 casedRanges.size := by
  by_cases passed : inRanges passedRanges c.toNat 0 passedRanges.size = true
  · simp [besideLetter, passed]
  · simp [besideLetter, passed]

def lineEndCodes : List Nat := [0xa, 0xb, 0xc, 0xd, 0x1c, 0x1d, 0x1e, 0x85, 0x2028, 0x2029]

theorem isLineEnd_iff {c : Char} : isLineEnd c = true ↔ c.toNat ∈ lineEndCodes := by
  simp only [isLineEnd, lineEndCodes, decide_eq_true_eq, List.mem_cons, List.not_mem_nil, ← Char.toNat_inj]
  rfl

theorem lineEnd_plain {e : Char} (ending : isLineEnd e = true) :
    inRanges passedRanges e.toNat 0 passedRanges.size = false ∧
      inRanges casedRanges e.toNat 0 casedRanges.size = false ∧ smallLetter e = e := by
  have counts : ∀ code ∈ lineEndCodes, inRanges passedRanges code 0 passedRanges.size = false ∧
      inRanges casedRanges code 0 casedRanges.size = false ∧ smallLetter (Char.ofNat code) = Char.ofNat code := by
    decide +kernel
  obtain ⟨passed, cased, small⟩ := counts _ (isLineEnd_iff.mp ending)
  rw [Char.ofNat_toNat] at small
  exact ⟨passed, cased, small⟩

theorem toNat_ofNat (n : Nat) : (Char.ofNat n).toNat = if n.isValidChar then n else 0 := by
  by_cases valid : n.isValidChar
  · rw [if_pos valid, Char.ofNat, dif_pos valid]
    rfl
  · rw [if_neg valid, Char.ofNat, dif_neg valid]
    rfl

theorem isLineEnd_smallLetter {c : Char} (plain : isLineEnd c = false) : isLineEnd (smallLetter c) = false := by
  have apart : ∀ entry ∈ capitals, ∀ code ∈ lineEndCodes,
      (code : Int) < entry.1 + entry.2.2.2 ∨ entry.2.1 + entry.2.2.2 < (code : Int) := by decide +kernel
  have positive : ∀ code ∈ lineEndCodes, 0 < code := by decide
  unfold smallLetter
  dsimp only
  split
  · rename_i first last step distance found
    have range := List.find?_some found
    simp only [Bool.and_eq_true, decide_eq_true_eq] at range
    refine Bool.eq_false_iff.mpr fun ending => ?_
    have code := isLineEnd_iff.mp ending
    have bounds := apart _ (List.mem_of_find?_eq_some found) _ code
    have some := positive _ code
    rw [toNat_ofNat] at bounds some
    split at some
    · rw [if_pos ‹_›] at bounds
      dsimp only at bounds
      omega
    · exact absurd some (Nat.lt_irrefl 0)
  · exact plain

theorem besideLetter_line {e : Char} (ending : isLineEnd e = true) (nearby rest : List Char) :
    besideLetter (nearby ++ e :: rest) = besideLetter nearby := by
  obtain ⟨counts, other, -⟩ := lineEnd_plain ending
  induction nearby with
  | nil =>
    rw [List.nil_append, besideLetter_cons, if_neg (Bool.eq_false_iff.mp counts)]
    exact other
  | cons c nearby ih => rw [List.cons_append, besideLetter_cons, besideLetter_cons, ih]

theorem go_behind_line {e : Char} (ending : isLineEnd e = true) (s before rest : List Char) :
    lowercase.go (before ++ e :: rest) s = lowercase.go before s := by
  induction s generalizing before with
  | nil => rfl
  | cons c s ih =>
    have step := ih (c :: before)
    rw [List.cons_append] at step
    rw [lowercase.go, lowercase.go, besideLetter_line ending, step]

theorem go_before_line {e : Char} (ending : isLineEnd e = true) (l before rest : List Char) :
    lowercase.go before (l ++ e :: rest) = lowercase.go before l ++ e :: lowercase rest := by
  induction l generalizing before with
  | nil =>
    obtain ⟨-, -, letter⟩ := lineEnd_plain ending
    have behind := go_behind_line ending rest [] before
    rw [List.nil_append] at behind
    have first : lowercase.go before (e :: rest) = [smallLetter e] ++ lowercase.go (e :: before) rest := by
      rw [lowercase.go, if_neg, if_neg]
      · rintro rfl
        cases ending
      · rintro rfl
        cases ending
    rw [List.nil_append, first, letter, behind]
    rfl
  | cons c l ih =>
    rw [List.cons_append, lowercase.go, besideLetter_line ending, ih, lowercase.go, List.append_assoc]

theorem lowercase_line {e : Char} (ending : isLineEnd e = true) (l rest : List Char) :
    lowercase (l ++ e :: rest) = lowercase l ++ e :: lowercase rest := go_before_line ending l [] rest

theorem go_plain {c : Char} (plain : isLineEnd c = false) (before rest : List Char) : ∃ d others,
    lowercase.go before (c :: rest) = d :: others ++ lowercase.go (c :: before) rest ∧ IsLine (d :: others) := by
  rw [lowercase.go]
  split
  · exact ⟨_, _, rfl, isLine_iff.mpr rfl⟩
  · split
    · refine ⟨_, [], rfl, ?_⟩
      split <;> exact isLine_iff.mpr rfl
    · exact ⟨_, [], rfl, by simpa [IsLine] using isLineEnd_smallLetter plain⟩

theorem isLine_lowercase {l : List Char} (single : IsLine l) : IsLine (lowercase l) := by
  have go (l before : List Char) (single : IsLine l) : IsLine (lowercase.go before l) := by
    induction l generalizing before with
    | nil => exact single
    | cons c l ih =>
      obtain ⟨plain, others⟩ := List.forall_mem_cons.mp single
      obtain ⟨d, more, small, line⟩ := go_plain plain before l
      rw [small]
      exact List.forall_mem_append.mpr ⟨line, ih _ others⟩
  exact go l [] single

theorem lowercase_eq_nil {l : List Char} (single : IsLine l) : lowercase l = [] ↔ l = [] := by
  cases l with
  | nil => exact iff_of_true rfl rfl
  | cons c l =>
    obtain ⟨d, more, small, -⟩ := go_plain (single c List.mem_cons_self) [] l
    rw [lowercase, small]
    exact iff_of_false (List.cons_ne_nil _ _) (List.cons_ne_nil c l)

theorem head_lowercase {s : List Char} (starts : (lowercase s).head? = some '\n') : s.head? = some '\n' := by
  cases s with
  | nil => cases starts
  | cons c rest =>
    cases ending : isLineEnd c with
    | true =>
      have front := lowercase_line ending [] rest
      rw [List.nil_append] at front
      rwa [front] at starts
    | false =>
      obtain ⟨d, more, small, line⟩ := go_plain ending [] rest
      rw [lowercase, small, List.cons_append, List.head?_cons] at starts
      have plain := line d List.mem_cons_self
      rw [Option.some.inj starts] at plain
      cases plain

theorem IsEnding.lowercase {rest ending : List Char} (ends : IsEnding rest ending) :
    IsEnding (Text.lowercase rest) ending := by
  cases ends with
  | pair => exact .pair
  | single ending apart => exact .single ending fun feed => mt head_lowercase (apart feed)

theorem lowercase_ending {rest ending : List Char} (ends : IsEnding rest ending) (l : List Char) :
    Text.lowercase (l ++ (ending ++ rest)) = Text.lowercase l ++ (ending ++ Text.lowercase rest) := by
  cases ends with
  | pair =>
    have feed := lowercase_line (e := '\n') rfl [] rest
    rw [List.nil_append] at feed
    rw [List.cons_append, List.singleton_append, lowercase_line rfl, feed]
    rfl
  | single ending _ => exact lowercase_line ending l rest

theorem lines_lowercase (s : List Char) : lines (lowercase s) = (lines s).map lowercase := by
  induction s using line_induction with
  | last l single =>
    rw [lines_of_isLine single, lines_of_isLine (isLine_lowercase single)]
    simp only [lowercase_eq_nil single]
    split <;> rfl
  | line l ending rest single ends ih =>
    rw [lowercase_ending ends, lines_ending (isLine_lowercase single) ends.lowercase, ih,
      lines_ending single ends, List.map_cons]

theorem lowercase_joined (ls : List (List Char)) (rest : List Char) :
    lowercase (joined ls ++ rest) = joined (ls.map lowercase) ++ lowercase rest := by
  induction ls with
  | nil => rfl
  | cons l others ih =>
    rw [joined_cons, List.append_assoc, List.cons_append, lowercase_line rfl, ih]
    simp

/-- The code points of blanks outside the row of spaces of any width. -/
def blankCodes : List Nat := lineEndCodes ++ [0x9, 0x1f, 0x20, 0xa0, 0x1680, 0x202f, 0x205f, 0x3000]

theorem isBlank_iff {c : Char} :
    isBlank c = true ↔ c.toNat ∈ blankCodes ∨ 0x2000 ≤ c.toNat ∧ c.toNat ≤ 0x200a := by
  have others : c ∈ ['\t', '\x1f', ' ', '\u00a0', '\u1680', '\u202f', '\u205f', '\u3000'] ↔
      c.toNat ∈ [0x9, 0x1f, 0x20, 0xa0, 0x1680, 0x202f, 0x205f, 0x3000] := by
    simp only [List.mem_cons, List.not_mem_nil, ← Char.toNat_inj]
    rfl
  have spaces : ('\u2000' ≤ c ∧ c ≤ '\u200a') ↔ 0x2000 ≤ c.toNat ∧ c.toNat ≤ 0x200a := Iff.rfl
  simp only [isBlank, Bool.or_eq_true, Bool.and_eq_true, decide_eq_true_eq, isLineEnd_iff, others, spaces, blankCodes,
    List.mem_append]

theorem isBlank_of_isDigit {c : Char} (digit : isDigit c = true) : isBlank c = false := by
  have apart : ∀ start ∈ digitZeros, (∀ code ∈ blankCodes, code < start ∨ start + 9 < code) ∧
      (0x200a < start ∨ start + 9 < 0x2000) := by decide +kernel
  obtain ⟨value, known⟩ := Option.isSome_iff_exists.mp digit
  obtain ⟨start, found, -⟩ := Option.map_eq_some_iff.mp known
  have range : start ≤ c.toNat ∧ c.toNat ≤ start + 9 := by simpa using List.find?_some found
  obtain ⟨codes, spaces⟩ := apart start (List.mem_of_find?_eq_some found)
  apply Bool.eq_false_iff.mpr
  intro blank
  rcases isBlank_iff.mp blank with code | space
  · have bounds := codes _ code
    omega
  · omega

theorem fields_go_append {word : List Char} (solid : ∀ c ∈ word, isBlank c = false) (rest field : List Char) :
    fields.go (word ++ rest) field = fields.go rest (word.reverse ++ field) := by
  induction word generalizing field with
  | nil => rfl
  | cons c word ih =>
    obtain ⟨first, others⟩ := List.forall_mem_cons.mp solid
    rw [List.cons_append, fields.go, if_neg (Bool.eq_false_iff.mp first), ih others]
    simp

theorem fields_pair {first second : List Char} {blank : Char} (some : first ≠ []) (some' : second ≠ [])
    (solid : ∀ c ∈ first, isBlank c = false) (solid' : ∀ c ∈ second, isBlank c = false)
    (between : isBlank blank = true) : fields (first ++ blank :: second) = [first, second] := by
  have last := fields_go_append solid' [] []
  rw [List.append_nil, List.append_nil] at last
  rw [fields, fields_go_append solid, List.append_nil, fields.go, if_pos between, last]
  cases found : second.reverse with
  | nil => exact absurd (List.reverse_eq_nil_iff.mp found) some'
  | cons c rest => simp [fields.go, some, ← found]

end Matchmaking.Text
