import Matchmaking.Matcher.Compose
import Matchmaking.Proofs.Constraint.Keeping
import Mathlib.Data.List.Forall2

/-! Names of rows are no identifiers of variables. A name of a caller's choice is refused if it is
one, and the names that are handed out start with the letter of their stem. -/
namespace Matchmaking

structure Constraint.IsWhole (c : Constraint) : Prop where
  unknowns : ∃ ids : List String, c.unknowns = ids.map .text
  target : ∃ t, c.target = .int t

/-- A whole row under a name that no identifier has. -/
structure Constraint.IsPlain (c : Constraint) : Prop extends c.IsWhole where
  name : ∃ s, c.name = .text s ∧ Identifier.hasForm s = false

theorem Constraint.IsWhole.named {c : Constraint} (whole : c.IsWhole) {s : String}
    (apart : Identifier.hasForm s = false) : { c with name := .text s }.IsPlain where
  unknowns := whole.unknowns
  target := whole.target
  name := ⟨s, rfl, apart⟩

/-- A row stays plain with the variables that are left of it, unless it is dropped. -/
theorem Constraint.IsPlain.keeping {c : Constraint} (plain : c.IsPlain) (ids : List String) :
    ∃ kept, c.keeping (ids.map .text) = .ok kept ∧ ∀ row ∈ kept, row.IsPlain := by
  obtain ⟨t, whole⟩ := plain.target
  by_cases some : ids.map Value.text = []
  · exact ⟨none, by rw [some, keeping_nil], by simp⟩
  · refine ⟨_, keeping_int whole some, ?_⟩
    intro row member
    rw [← Option.some.inj member]
    exact { unknowns := ⟨ids, rfl⟩, target := ⟨_, rfl⟩, name := plain.name }

namespace Identifier

theorem hasForm_of_head {s : String} {c : Char} {rest : List Char} (shape : s.toList = c :: rest) (other : c ≠ 'v') :
    hasForm s = false := by
  rw [hasForm, shape, parts?]
  · rfl
  · rintro _ ⟨⟩
    exact other rfl

end Identifier

theorem Namer.numbered_apart {stem : String} {c : Char} {rest : List Char} (shape : stem.toList = c :: rest)
    (other : c ≠ 'v') (number : Nat) : Identifier.hasForm (numbered stem number) = false := by
  have whole : (numbered stem number).toList = c :: (rest ++ Nat.toDigits 10 number) := by
    rw [numbered, String.toList_append, shape, String.toList_ofList, List.cons_append]
  exact Identifier.hasForm_of_head whole other

theorem Name.check_eq_ok {name : Value} {s : String} (checked : check name = .ok s) :
    name = .text s ∧ Identifier.hasForm s = false := by
  unfold check at checked
  split at checked
  · cases checked
  · rename_i other text
    split at checked
    · cases checked
    · rename_i word
      split at checked
      · cases checked
      · rename_i apart
        split at checked
        · cases checked
        · cases checked
          refine ⟨?_, Bool.eq_false_iff.mpr apart⟩
          cases name with
          | text value => exact congrArg Value.text (Option.some.inj text)
          | operator op =>
            rw [← Option.some.inj text] at word
            exact absurd (by cases op <;> rfl) word
          | _ => cases text

namespace Matcher

/-- The stem under which callers' rows are numbered. -/
def usualStem : String := "constraint"

theorem nameRow_eq_ok {namer next : Namer} {c row : Constraint} (stem : namer.stem = usualStem) (whole : c.IsWhole)
    (named : nameRow namer c = .ok (row, next)) : row.IsPlain ∧ next.stem = usualStem := by
  unfold nameRow at named
  split at named
  · obtain ⟨⟨s, later⟩, claims, named⟩ := bind_eq_ok.mp named
    obtain ⟨checked, found, free⟩ := bind_eq_ok.mp claims
    obtain ⟨text, apart⟩ := Name.check_eq_ok found
    split at free
    · cases free
    · cases free
      cases named
      exact ⟨{ toIsWhole := whole, name := ⟨_, text, apart⟩ }, stem⟩
  · cases named
    have shape : namer.stem.toList = 'c' :: "onstraint".toList := by rw [stem]; rfl
    exact ⟨whole.named (Namer.numbered_apart shape (by decide) _), stem⟩

theorem nameRows_numbered (namer : Namer) (rows : List Constraint) :
    ∀ c ∈ (nameRows namer rows).1, ∃ number, c.name = .text (Namer.numbered namer.stem number) := by
  induction rows generalizing namer with
  | nil => simp [nameRows]
  | cons c rest ih => exact List.forall_mem_cons.mpr ⟨⟨_, rfl⟩, ih namer.hand.2⟩

theorem countName_apart (number : Nat) : Identifier.hasForm (Namer.numbered "count" number) = false :=
  Namer.numbered_apart (show "count".toList = 'c' :: "ount".toList from rfl) (by decide) number

end Matcher

end Matchmaking
