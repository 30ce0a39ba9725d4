import Matchmaking.Proofs.Constraint.Handing
import Matchmaking.Proofs.Solver.Reading

/-! Rows that a solver echoes in its listing. A row is counted as a variable just if its name has the form of an
identifier and the value beside it is one. Names are handed out under any stem, so they can be used for rows
only if their stem is plain. -/
namespace Matchmaking

namespace Identifier

theorem solid_of_hasForm {name : String} (form : hasForm name = true) :
    name.toList ≠ [] ∧ ∀ c ∈ name.toList, Text.isBlank c = false := by
  obtain ⟨found, parts⟩ := Option.isSome_iff_exists.mp form
  obtain ⟨whole, -, digits⟩ := parts?_eq_some.mp parts
  have joined (found : List (List Char)) (digits : ∀ piece ∈ found, ∀ c ∈ piece, Text.isDigit c = true) :
      ∀ c ∈ joinPieces 'x' found, Text.isBlank c = false := by
    induction found with
    | nil => simp [joinPieces]
    | cons piece rest ih =>
      obtain ⟨first, others⟩ := List.forall_mem_cons.mp digits
      have solid : ∀ c ∈ piece, Text.isBlank c = false := fun c member => Text.isBlank_of_isDigit (first c member)
      cases rest with
      | nil => exact solid
      | cons next others' =>
        rw [joinPieces_cons (List.cons_ne_nil _ _)]
        exact List.forall_mem_append.mpr ⟨solid, List.forall_mem_cons.mpr ⟨rfl, ih others⟩⟩
  rw [whole]
  exact ⟨List.cons_ne_nil _ _, List.forall_mem_cons.mpr
    ⟨rfl, joined found fun piece member => (digits piece member).2⟩⟩

end Identifier

namespace Listing

/-- A name with the form of an identifier is counted where it stands behind the heading with the value one. -/
theorem read_echo {name : String} (form : Identifier.hasForm name = true) :
    read (String.ofList (header.toList ++ '\n' :: (name.toList ++ ' ' :: ['1']))) none = .ok (.optimal, [name]) := by
  obtain ⟨some, solid⟩ := Identifier.solid_of_hasForm form
  have heading : Text.lowercase header.toList = header.toList := by decide +kernel
  have line : Text.IsLine (name.toList ++ ' ' :: ['1']) := by
    refine List.forall_mem_append.mpr ⟨?_, Text.isLine_iff.mpr (by decide)⟩
    intro c member
    apply Bool.eq_false_iff.mpr
    exact fun ending => Bool.eq_false_iff.mp (solid c member) (Text.isBlank_of_isLineEnd ending)
  have lines : Text.lines (header.toList ++ '\n' :: (name.toList ++ ' ' :: ['1'])) =
      [header.toList, name.toList ++ ' ' :: ['1']] := by
    rw [Text.lines_line (Text.isLine_iff.mpr (by decide)) rfl (by decide), Text.lines_of_isLine line]
    simp
  have silent : selectedOn? header.toList = none := by decide +kernel
  have one : ∀ c ∈ ['1'], Text.isBlank c = false := List.forall_mem_singleton.mpr (by decide)
  have counted : selectedOn? (name.toList ++ ' ' :: ['1']) = .some name :=
    selectedOn?_eq_some.mpr ⟨['1'], Text.fields_pair some (by decide) solid one (by decide), form, by decide +kernel⟩
  have names : selected none (header.toList ++ '\n' :: (name.toList ++ ' ' :: ['1'])) = [name] := by
    simp only [selected, lines, List.filterMap_cons, silent, counted, List.filterMap_nil]
    exact Text.distinct_of_nodup (List.nodup_singleton name)
  have start : before header.toList (Text.lowercase (header.toList ++ '\n' :: (name.toList ++ ' ' :: ['1']))) =
      ([], true) := by
    rw [Text.lowercase_line rfl, heading]
    exact before_of_start (List.prefix_append _ _)
  rw [read_any, start, names]
  rfl

/-- A name is counted in some text just if it has the form of an identifier. -/
theorem counted_iff {name : String} : (∃ text known status names,
    read text known = .ok (status, names) ∧ name ∈ names) ↔ Identifier.hasForm name = true := by
  constructor
  · rintro ⟨text, known, status, names, reads, member⟩
    obtain ⟨line, -, selected⟩ := List.mem_filterMap.mp (mem_of_read reads name member)
    obtain ⟨-, -, form, -⟩ := selectedOn?_eq_some.mp selected
    exact form
  · intro form
    exact ⟨_, _, _, _, read_echo form, List.mem_singleton_self name⟩

end Listing

namespace Namer

/-- Whatever has been asked of a namer, the next name is its stem with a number. The name passes as one for a row
just if the stem is plain, and it can be counted as a variable just if the stem makes an identifier. -/
theorem usable_of_stem {stem : String} {reserved : Value} {start : Namer}
    (made : make (.text stem) reserved = .ok start) (requests : List Request) :
    let name := (start.after requests).hand.1
    (∃ number, name = numbered stem number) ∧
      ((∃ s, Name.check (.text name) = .ok s) ↔ isPlainStem stem = true) ∧
      ((∃ text known status names, Listing.read text known = .ok (status, names) ∧ name ∈ names) ↔
        Identifier.hasForm (numbered stem 0) = true) := by
  intro name
  have same : (start.after requests).stem = stem := by
    obtain ⟨_, ⟨⟩, made⟩ := bind_eq_ok.mp made
    obtain ⟨names, -, ⟨⟩⟩ := bind_eq_ok.mp made
    exact after_stem _ requests
  have shape : name = numbered stem (start.after requests).nextFree := by
    rw [← same]
    rfl
  refine ⟨⟨_, shape⟩, ?_, ?_⟩
  · rw [Name.check_text_iff, shape, isUsable_numbered]
  · rw [Listing.counted_iff, shape, hasForm_numbered]

/-- Under the letter of identifiers the first name handed out is that of a variable, and is counted as one. -/
theorem unusable_of_letter : ∃ start : Namer, make (.text "v") (.list []) = .ok start ∧ start.hand.1 = "v0" ∧
    (¬∃ s, Name.check (.text start.hand.1) = .ok s) ∧
    ∃ text known status names, Listing.read text known = .ok (status, names) ∧ start.hand.1 ∈ names := by
  obtain ⟨start, made⟩ : ∃ start, make (.text "v") (.list []) = .ok start := ⟨_, rfl⟩
  obtain ⟨-, passes, counted⟩ := usable_of_stem made []
  have free : start.isTaken (numbered "v" 0) = false := by
    cases made
    exact Bool.eq_false_iff.mpr fun taken => List.not_mem_nil (isTaken_iff.mp taken)
  have first : start.nextFree = 0 := by
    cases made
    rw [nextFree, seek, if_neg (Bool.eq_false_iff.mp free)]
    rfl
  refine ⟨start, made, ?_, fun passed => ?_, counted.mpr (by decide +kernel)⟩
  · cases made
    rw [hand, first]
    decide +kernel
  · exact absurd (passes.mp passed) (by decide +kernel)

example : isPlainStem "constraint" = true := by decide +kernel

end Namer

end Matchmaking
