import Mathlib.Data.List.Perm.Basic
import Matchmaking.Proofs.Success
import Matchmaking.Proofs.Text.Lines
import Matchmaking.Proofs.Value.Sameness
import Matchmaking.Solver.Listing

/-! What a printed text comes to, whatever it is. It is read line by line: what counts before the heading are
the lines up to it, and a variable counts if some line selects it. So the lines behind the heading may
stand in any order, and any of them more than once. -/
namespace Matchmaking.Listing

theorem before_of_start {part s : List Char} (starts : part <+: s) : before part s = ([], true) := by
  unfold before
  rw [if_pos (List.isPrefixOf_iff_prefix.mpr starts)]

theorem before_cons {part : List Char} {c : Char} {rest : List Char} (otherwise : ¬part <+: c :: rest) :
    before part (c :: rest) = (c :: (before part rest).1, (before part rest).2) := by
  conv_lhs => unfold before
  rw [if_neg (mt List.isPrefixOf_iff_prefix.mp otherwise)]

theorem before_append (part front back : List Char) :
    ∃ first, before part (front ++ (part ++ back)) = (first, true) ∧ first <+: front := by
  induction front with
  | nil => exact ⟨[], before_of_start (List.prefix_append _ _), List.nil_prefix⟩
  | cons c front ih =>
    obtain ⟨first, found, early⟩ := ih
    by_cases here : part <+: c :: (front ++ (part ++ back))
    · exact ⟨[], before_of_start here, List.nil_prefix⟩
    · refine ⟨c :: first, ?_, (List.prefix_cons_inj c).mpr early⟩
      rw [List.cons_append, before_cons here, found]

theorem before_nil {part : List Char} (some : part ≠ []) : before part [] = ([], false) := by
  unfold before
  rw [if_neg]
  exact fun starts => some (List.prefix_nil.mp (List.isPrefixOf_iff_prefix.mp starts))

theorem before_found {part : List Char} (some : part ≠ []) (s : List Char) :
    (before part s).2 = true ↔ part <:+: s := by
  induction s with
  | nil =>
    rw [before_nil some]
    exact iff_of_false Bool.false_ne_true (mt List.infix_nil.mp some)
  | cons c rest ih =>
    by_cases starts : part <+: c :: rest
    · rw [before_of_start starts]
      exact iff_of_true rfl starts.isInfix
    · rw [before_cons starts, List.infix_cons_iff, or_iff_right starts, ih]

theorem before_early (part s : List Char) : (before part s).1 <+: s := by
  induction s with
  | nil =>
    unfold before
    split <;> exact List.prefix_refl _
  | cons c rest ih =>
    by_cases starts : part <+: c :: rest
    · rw [before_of_start starts]
      exact List.nil_prefix
    · rw [before_cons starts]
      exact (List.prefix_cons_inj c).mpr ih

theorem before_unfound {part s : List Char} (unfound : (before part s).2 = false) : (before part s).1 = s := by
  induction s with
  | nil => exact List.prefix_nil.mp (before_early part [])
  | cons c rest ih =>
    by_cases starts : part <+: c :: rest
    · rw [before_of_start starts] at unfound
      cases unfound
    · rw [before_cons starts] at unfound ⊢
      rw [ih unfound]

theorem prefix_line {part l : List Char} {e : Char} (single : Text.IsLine part) (ending : Text.isLineEnd e = true)
    (rest : List Char) : part <+: l ++ e :: rest ↔ part <+: l := by
  refine ⟨fun starts => ?_, fun starts => starts.trans (List.prefix_append _ _)⟩
  rcases List.prefix_or_prefix_of_prefix starts (List.prefix_append l (e :: rest)) with inside | ⟨left, rfl⟩
  · exact inside
  · cases left with
    | nil => exact (List.append_nil l).symm ▸ List.prefix_refl l
    | cons c left =>
      obtain ⟨rfl, -⟩ := List.cons_prefix_cons.mp ((List.prefix_append_right_inj l).mp starts)
      cases ending.symm.trans (single c (List.mem_append_right _ List.mem_cons_self))

/-- Where a part is not found on the first line of a text, it is looked for behind that line. -/
theorem before_line {part l : List Char} {e : Char} (some : part ≠ []) (single : Text.IsLine part)
    (ending : Text.isLineEnd e = true) (rest : List Char) : before part (l ++ e :: rest) =
      if (before part l).2 = true then before part l
      else (l ++ e :: (before part rest).1, (before part rest).2) := by
  induction l with
  | nil =>
    have otherwise : ¬part <+: e :: rest := fun starts =>
      some (List.prefix_nil.mp ((prefix_line (l := []) single ending rest).mp starts))
    rw [List.nil_append, before_cons otherwise, before_nil some]
    rfl
  | cons c l ih =>
    by_cases starts : part <+: c :: l
    · rw [before_of_start starts, before_of_start (starts.trans (List.prefix_append (c :: l) _))]
      rfl
    · have otherwise : ¬part <+: c :: (l ++ e :: rest) := fun whole =>
        starts ((prefix_line (l := c :: l) single ending rest).mp whole)
      rw [List.cons_append, before_cons otherwise, before_cons starts, ih]
      dsimp only
      split <;> rfl

theorem before_ending {part l ending rest : List Char} (some : part ≠ []) (single : Text.IsLine part)
    (ends : Text.IsEnding rest ending) : before part (l ++ (ending ++ rest)) =
      if (before part l).2 = true then before part l
      else (l ++ (ending ++ (before part rest).1), (before part rest).2) := by
  cases ends with
  | pair =>
    have feed := before_line (l := []) (e := '\n') some single rfl rest
    rw [before_nil some, if_neg Bool.false_ne_true, List.nil_append, List.nil_append] at feed
    rw [List.cons_append, List.singleton_append, before_line some single rfl, feed]
    rfl
  | single ending _ => exact before_line some single ending rest

/-- The same ending is left when what is behind it is cut off from some place on. -/
theorem ending_before (part : List Char) {ending rest : List Char} (ends : Text.IsEnding rest ending) :
    Text.IsEnding (before part rest).1 ending := by
  cases ends with
  | pair => exact .pair
  | single ending apart =>
    refine .single ending fun feed starts => apart feed ?_
    obtain ⟨later, front⟩ := List.head?_eq_some_iff.mp starts
    obtain ⟨back, whole⟩ := before_early part rest
    rw [← whole, front]
    rfl

/-- The lines before the first occurrence of a part, the last one being what stands before it there, and
whether there is one. -/
def beforeLines (part : List Char) : List (List Char) → List (List Char) × Bool
  | [] => ([], false)
  | l :: rest =>
    if (before part l).2 then (Text.lines (before part l).1, true)
    else (l :: (beforeLines part rest).1, (beforeLines part rest).2)

theorem lines_before {part : List Char} (some : part ≠ []) (single : Text.IsLine part) (s : List Char) :
    (Text.lines (before part s).1, (before part s).2) = beforeLines part (Text.lines s) := by
  induction s using Text.line_induction with
  | last l only =>
    by_cases empty : l = []
    · subst empty
      rw [before_nil some]
      rfl
    · rw [Text.lines_of_isLine only, if_neg empty, beforeLines]
      cases found : (before part l).2 with
      | true => rfl
      | false =>
        rw [before_unfound found, Text.lines_of_isLine only, if_neg empty]
        rfl
  | line l ending rest only ends ih =>
    rw [Text.lines_ending only ends, before_ending some single ends, beforeLines, ← ih]
    cases found : (before part l).2 with
    | true => simp [found]
    | false => simp [Text.lines_ending only (ending_before part ends)]

theorem beforeLines_append {part : List Char} (some : part ≠ []) {front : List (List Char)}
    (inside : ∃ line ∈ front, part <:+: line) (back : List (List Char)) :
    beforeLines part (front ++ back) = beforeLines part front ∧ (beforeLines part front).2 = true := by
  induction front with
  | nil => simp at inside
  | cons l front ih =>
    rw [List.cons_append, beforeLines, beforeLines]
    cases found : (before part l).2 with
    | true => exact ⟨rfl, rfl⟩
    | false =>
      have later : ∃ line ∈ front, part <:+: line := by
        obtain ⟨line, member, held⟩ := inside
        rcases List.mem_cons.mp member with rfl | member
        · rw [(before_found some line).mpr held] at found
          cases found
        · exact ⟨line, member, held⟩
      obtain ⟨same, headed⟩ := ih later
      rw [same]
      exact ⟨rfl, headed⟩

theorem selectedOn?_eq_some {line : List Char} {name : String} : selectedOn? line = some name ↔
    ∃ value, Text.fields line = [name.toList, value] ∧ Identifier.hasForm name = true ∧ isOne value = true := by
  unfold selectedOn?
  constructor
  · intro found
    split at found
    · rename_i first value split
      simp only [Option.ite_none_right_eq_some, Bool.and_eq_true, Option.some.injEq] at found
      obtain ⟨holds, rfl⟩ := found
      exact ⟨value, by rw [split, String.toList_ofList], holds⟩
    · cases found
  · rintro ⟨value, split, form, one⟩
    simp [split, form, one]

/-- What is selected among keys are the names that are among them. -/
theorem mem_selected_keys {keys : List Value} {s : List Char} {name : String} :
    name ∈ selected (some (.of (keys.map (·, ())))) s ↔
      (∃ key ∈ keys, key.text? = some name) ∧ name ∈ (Text.lines s).filterMap selectedOn? := by
  unfold selected
  rw [Text.mem_distinct, List.mem_filter, and_comm, Lookup.has_of, Keyed.has_iff]
  simp [Keyed.keys, Value.same_text_iff]

variable {ids : List String}

theorem mem_selected {s : List Char} {name : String} :
    name ∈ selected (some (.of ((ids.map Value.text).map (·, ())))) s ↔
      name ∈ ids ∧ name ∈ (Text.lines s).filterMap selectedOn? := by
  rw [mem_selected_keys]
  simp [Value.text?]

theorem nodup_selected (known : Option (Lookup Unit)) (s : List Char) : (selected known s).Nodup :=
  Text.nodup_distinct _

/-- What the lines before the heading, the heading and the selection come to. -/
def verdict (said : List (List Char)) (headed : Bool) (names : List String) : Status × List String :=
  if (said.map sentence).contains infeasibleSentence then (.infeasible, [])
  else if (said.map sentence).contains unboundedSentence then (.invalid, [])
  else if !headed && names.isEmpty then (.unknown, [])
  else (.optimal, names)

theorem verdict_ends (said : List (List Char)) (headed : Bool) (names : List String) :
    verdict said headed names = (.optimal, names) ∨
      ∃ status, status.ok = false ∧ verdict said headed names = (status, []) := by
  unfold verdict
  split
  · exact .inr ⟨.infeasible, rfl, rfl⟩
  · split
    · exact .inr ⟨.invalid, rfl, rfl⟩
    · split
      · exact .inr ⟨.unknown, rfl, rfl⟩
      · exact .inl rfl

theorem verdict_perm {selection other : List String} (same : selection.Perm other) (said : List (List Char))
    (headed : Bool) : (verdict said headed selection).1 = (verdict said headed other).1 ∧
      (verdict said headed selection).2.Perm (verdict said headed other).2 := by
  unfold verdict
  rw [same.isEmpty_eq]
  split
  · exact ⟨rfl, .refl _⟩
  · split
    · exact ⟨rfl, .refl _⟩
    · split
      · exact ⟨rfl, .refl _⟩
      · exact ⟨rfl, same⟩

/-- A text is read without fail if the variables can be looked up, and if none are given. -/
theorem read_given (s : List Char) {known : Option Value} {keys : Option (List Value)}
    (usable : known.mapM (Value.traverse Value.asKey) = .ok keys) : read (String.ofList s) known =
    .ok (verdict (Text.lines (before header.toList (Text.lowercase s)).1) (before header.toList (Text.lowercase s)).2
      (selected (keys.map fun keys => .of (keys.map (·, ()))) s)) := by
  simp only [read, verdict, String.toList_ofList, usable, ok_bind, pure_eq_ok]
  split
  · rfl
  · split
    · rfl
    · split <;> rfl

theorem read_any (s : List Char) : read (String.ofList s) none =
    .ok (verdict (Text.lines (before header.toList (Text.lowercase s)).1) (before header.toList (Text.lowercase s)).2
      (selected none s)) :=
  @read_given s none none rfl

theorem read_keys (s : List Char) {known : Value} {keys : List Value}
    (usable : known.traverse Value.asKey = .ok keys) : read (String.ofList s) (some known) =
    .ok (verdict (Text.lines (before header.toList (Text.lowercase s)).1) (before header.toList (Text.lowercase s)).2
      (selected (some (.of (keys.map (·, ())))) s)) := by
  refine @read_given s (some known) (some keys) ?_
  rw [Option.mapM_some, usable]
  rfl

theorem read_known (s : List Char) (ids : List String) : read (String.ofList s) (some (.list (ids.map .text))) =
    .ok (verdict (Text.lines (before header.toList (Text.lowercase s)).1) (before header.toList (Text.lowercase s)).2
      (selected (some (.of ((ids.map Value.text).map (·, ())))) s)) := by
  apply read_keys
  show (ids.map Value.text).mapM Value.asKey = _
  rw [mapM_eq_ok, List.forall₂_same]
  intro v member
  obtain ⟨id, -, rfl⟩ := List.mem_map.mp member
  rfl

/-- Whatever a text is, what is read off it are some of the variables, each once, and none if the status is
not good. -/
theorem read_ends (s : List Char) (ids : List String) : ∃ status selection,
    read (String.ofList s) (some (.list (ids.map .text))) = .ok (status, selection) ∧ selection.Nodup ∧
      selection ⊆ ids ∧ (status.ok = false → selection = []) := by
  rw [read_known]
  rcases verdict_ends _ _ _ with whole | ⟨status, bad, nothing⟩
  · exact ⟨_, _, congrArg Except.ok whole, nodup_selected _ _, fun _ member => (mem_selected.mp member).1, by rintro ⟨⟩⟩
  · exact ⟨status, [], congrArg Except.ok nothing, List.nodup_nil, List.nil_subset _, fun _ => rfl⟩

theorem mem_of_read {text : String} {known : Option Value} {status : Status} {names : List String}
    (reads : read text known = .ok (status, names)) :
    ∀ name ∈ names, name ∈ (Text.lines text.toList).filterMap selectedOn? := by
  have chosen (known : Option (Lookup Unit)) (s : List Char) :
      ∀ name ∈ selected known s, name ∈ (Text.lines s).filterMap selectedOn? := by
    intro name member
    unfold selected at member
    cases known with
    | none => exact Text.mem_distinct.mp member
    | some ids => exact List.mem_of_mem_filter (Text.mem_distinct.mp member)
  simp only [read] at reads
  split at reads
  · cases reads
    simp
  · split at reads
    · cases reads
      simp
    · obtain ⟨keys, -, reads⟩ := bind_eq_ok.mp reads
      split at reads
      · cases reads
        simp
      · cases reads
        exact chosen _ _

/-- What comes before the heading is the same for texts that start with the same lines up to it. -/
theorem said_of_lines {front back : List (List Char)} {s : List Char} (lines : Text.lines s = front ++ back)
    (headed : ∃ line ∈ front, header.toList <:+: Text.lowercase line) :
    (Text.lines (before header.toList (Text.lowercase s)).1, (before header.toList (Text.lowercase s)).2) =
      beforeLines header.toList (front.map Text.lowercase) := by
  have inside : ∃ line ∈ front.map Text.lowercase, header.toList <:+: line := by
    obtain ⟨line, member, held⟩ := headed
    exact ⟨_, List.mem_map_of_mem member, held⟩
  rw [lines_before (by decide) (Text.isLine_iff.mpr (by decide)), Text.lines_lowercase,
    lines, List.map_append, (beforeLines_append (by decide) inside _).1]

/-- Whether a text has the same lines as another, in any order and number behind a line with the heading. Empty
lines do not matter there. -/
def Rearranged (s t : String) : Prop := ∃ front back back',
  Text.lines s.toList = front ++ back ∧ Text.lines t.toList = front ++ back' ∧
    (∃ line ∈ front, header.toList <:+: Text.lowercase line) ∧ ∀ line, line ≠ [] → (line ∈ back ↔ line ∈ back')

theorem selected_perm {s t : List Char} {front back back' : List (List Char)} (first : Text.lines s = front ++ back)
    (second : Text.lines t = front ++ back') (same : ∀ line, line ≠ [] → (line ∈ back ↔ line ∈ back'))
    (ids : List String) : (selected (some (.of ((ids.map Value.text).map (·, ())))) s).Perm
      (selected (some (.of ((ids.map Value.text).map (·, ())))) t) := by
  refine (List.perm_ext_iff_of_nodup (nodup_selected _ _) (nodup_selected _ _)).mpr fun id => ?_
  rw [mem_selected, mem_selected, first, second, List.mem_filterMap, List.mem_filterMap]
  refine and_congr_right fun _ => exists_congr fun line => and_congr_left fun found => ?_
  have some : line ≠ [] := by
    rintro rfl
    cases found
  rw [List.mem_append, List.mem_append, same line some]

theorem Rearranged.read {s t : String} (rearranged : Rearranged s t) (ids : List String) :
    ∃ status selection other,
      read (String.ofList (Text.unifyLineEnds s.toList)) (some (.list (ids.map .text))) = .ok (status, selection) ∧
      read (String.ofList (Text.unifyLineEnds t.toList)) (some (.list (ids.map .text))) = .ok (status, other) ∧
      selection.Perm other := by
  obtain ⟨front, back, back', first, second, headed, same⟩ := rearranged
  rw [← Text.lines_unifyLineEnds] at first second
  obtain ⟨lines, found⟩ := Prod.mk.inj ((said_of_lines first headed).trans (said_of_lines second headed).symm)
  rw [read_known, read_known, lines, found]
  obtain ⟨status, selection⟩ := verdict_perm (selected_perm first second same ids) _ _
  refine ⟨_, _, _, congrArg Except.ok (Prod.eta _).symm, ?_, selection⟩
  rw [status]

end Matchmaking.Listing
