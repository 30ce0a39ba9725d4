import Mathlib.Data.List.Nodup
import Mathlib.Data.List.Perm.Subperm
import Matchmaking.Proofs.Constraint.Stems
import Matchmaking.Proofs.Space.Table

/-! Names that a namer gives out. Whether it hands out the next free name or a caller claims one, the
name was free before and is taken from then on, and nothing else changes hands. There always is a free
number: as many names as are taken cannot keep one more number from being free. -/
namespace Matchmaking

namespace Namer

variable {namer next : Namer} {name : String}

def texts (namer : Namer) : List String := namer.taken.keys.filterMap Value.text?

theorem isTaken_iff : namer.isTaken name = true ↔ name ∈ namer.texts := by
  rw [isTaken, Roster.has_iff, texts, List.mem_filterMap]
  simp only [Value.same_text_iff]

theorem length_texts (namer : Namer) : namer.texts.length ≤ namer.taken.size := by
  rw [← Roster.length_keys]
  exact List.length_filterMap_le _ _

theorem numbered_injective (stem : String) : Function.Injective (numbered stem) := by
  intro i j equal
  have digits := congrArg String.toList equal
  simp only [numbered, String.toList_append, String.toList_ofList, List.append_cancel_left_eq] at digits
  have value := congrArg (fun digits => Nat.ofDigitChars 10 digits 0) digits
  simpa using value

theorem numbered_ne_empty (stem : String) (number : Nat) : numbered stem number ≠ "" := by
  intro empty
  have chars := congrArg String.toList empty
  simp [numbered] at chars

theorem seek_free {fuel start number : Nat} (found : namer.seek fuel start = some number) :
    namer.isTaken (numbered namer.stem number) = false := by
  induction fuel generalizing start with
  | zero => cases found
  | succ fuel ih =>
    rw [seek] at found
    split at found
    · exact ih found
    · rename_i free
      cases found
      exact Bool.eq_false_iff.mpr free

/-- A search without success has met only names that are taken. -/
theorem taken_of_seek {fuel start : Nat} (none : namer.seek fuel start = none) :
    ∀ i < fuel, namer.isTaken (numbered namer.stem (start + i)) = true := by
  induction fuel generalizing start with
  | zero => exact fun i less => absurd less (Nat.not_lt_zero i)
  | succ fuel ih =>
    rw [seek] at none
    split at none
    · rename_i first
      intro i less
      cases i with
      | zero => exact first
      | succ i =>
        have later := ih none i (Nat.lt_of_succ_lt_succ less)
        rwa [Nat.add_right_comm, Nat.add_assoc] at later
    · cases none

theorem seek_succeeds (namer : Namer) (start : Nat) :
    ∃ number, namer.seek (namer.taken.size + 1) start = some number := by
  cases searched : namer.seek (namer.taken.size + 1) start with
  | some number => exact ⟨number, rfl⟩
  | none =>
    let met := (List.range (namer.taken.size + 1)).map fun i => numbered namer.stem (start + i)
    have different : met.Nodup :=
      List.nodup_range.map fun i j equal => Nat.add_left_cancel (numbered_injective _ equal)
    have held : met ⊆ namer.texts := by
      intro name member
      obtain ⟨i, inside, rfl⟩ := List.mem_map.mp member
      exact isTaken_iff.mp (taken_of_seek searched i (List.mem_range.mp inside))
    have fewer := (different.subperm held).length_le
    rw [List.length_map, List.length_range] at fewer
    exact absurd fewer (Nat.not_le.mpr (Nat.lt_succ_of_le namer.length_texts))

/-- A free name is given out and taken from then on. -/
structure Gives (namer : Namer) (name : String) (next : Namer) : Prop where
  free : namer.isTaken name = false
  stem : next.stem = namer.stem
  taken : next.taken = Roster.add namer.taken (.text name)

theorem hand_gives (namer : Namer) : namer.Gives namer.hand.1 namer.hand.2 where
  free := by
    obtain ⟨number, found⟩ := namer.seek_succeeds namer.next
    have free := seek_free found
    simpa only [hand, nextFree, found, Option.getD_some] using free
  stem := rfl
  taken := rfl

theorem hand_of_free {namer : Namer} (free : namer.isTaken (numbered namer.stem namer.next) = false) :
    namer.hand = (numbered namer.stem namer.next, { namer with
      next := namer.next + 1
      taken := Roster.add namer.taken (.text (numbered namer.stem namer.next)) }) := by
  have found : namer.nextFree = namer.next := by rw [nextFree, seek, free, if_neg Bool.false_ne_true, Option.getD_some]
  rw [hand, found]

theorem claim_gives {v : Value} (claimed : namer.claim v = .ok (name, next)) :
    v = .text name ∧ Name.check v = .ok name ∧ namer.Gives name next := by
  obtain ⟨checked, found, claimed⟩ := bind_eq_ok.mp claimed
  split at claimed
  · cases claimed
  · rename_i free
    cases claimed
    obtain ⟨rfl, -⟩ := Name.check_eq_ok found
    exact ⟨rfl, found, Bool.eq_false_iff.mpr free, rfl, rfl⟩

theorem Gives.keys (gives : namer.Gives name next) : next.taken.keys = namer.taken.keys ++ [.text name] := by
  have free := gives.free
  rw [isTaken] at free
  rw [gives.taken, Roster.keys_add, free, if_neg Bool.false_ne_true]

/-- Exactly the names that were taken and the one that is given out are taken afterwards. -/
theorem Gives.isTaken_iff (gives : namer.Gives name next) {other : String} :
    next.isTaken other = true ↔ namer.isTaken other = true ∨ other = name := by
  rw [Namer.isTaken_iff, Namer.isTaken_iff, texts, gives.keys, List.filterMap_append, List.mem_append]
  refine or_congr_right ?_
  simp [Value.text?]

theorem not_isTaken_fresh (name : String) : isTaken {} name = false := by
  rw [Bool.eq_false_iff, ne_eq, isTaken_iff]
  exact List.not_mem_nil

/-- What is asked of a namer: the next name, a name of the caller's choice, or to start anew. -/
inductive Request where
  | next
  | claim (name : Value)
  | reset

/-- The name that answers a request, if one does, and the namer afterwards. A name that is refused leaves the
namer as it is. -/
def ask (namer : Namer) : Request → Except Failure (Option String) × Namer
  | .next => (.ok (some namer.hand.1), namer.hand.2)
  | .claim name =>
    match namer.claim name with
    | .ok (given, next) => (.ok (some given), next)
    | .error failure => (.error failure, namer)
  | .reset => (.ok none, namer.reset)

/-- The namer after requests of which each may have been met or refused. -/
def after (namer : Namer) (requests : List Request) : Namer :=
  requests.foldl (fun namer request => (namer.ask request).2) namer

theorem ask_stem (namer : Namer) (request : Request) : (namer.ask request).2.stem = namer.stem := by
  cases request with
  | next | reset => rfl
  | claim name =>
    rw [ask]
    split
    · rename_i claimed
      exact (claim_gives claimed).2.2.stem
    · rfl

theorem after_stem (namer : Namer) (requests : List Request) : (namer.after requests).stem = namer.stem := by
  induction requests generalizing namer with
  | nil => rfl
  | cons request requests ih => exact (ih _).trans (namer.ask_stem request)

end Namer

namespace Name

theorem isUsable_of_check {v : Value} {s : String} (checked : check v = .ok s) : isUsable s = true := by
  unfold check at checked
  split at checked
  · cases checked
  · rename_i text _
    by_cases word : isWord text.toList = true
    · by_cases form : Identifier.hasForm text = true
      · simp [word, form] at checked
      · by_cases keyword : isKeyword text = true
        · simp [word, form, keyword] at checked
        · simp only [word, form, keyword, Bool.not_true, Bool.false_eq_true, if_false] at checked
          cases checked
          simp [isUsable, word, form, keyword]
    · simp [word] at checked

theorem check_text_iff {name : String} : (∃ s, check (.text name) = .ok s) ↔ isUsable name = true := by
  constructor
  · rintro ⟨s, checked⟩
    obtain ⟨⟨⟩, -⟩ := check_eq_ok checked
    exact isUsable_of_check checked
  · intro usable
    simp only [isUsable, Bool.and_eq_true, Bool.not_eq_true'] at usable
    obtain ⟨⟨word, form⟩, keyword⟩ := usable
    exact ⟨name, by simp [check, Value.text?, word, form, keyword]⟩

theorem ne_empty_of_isUsable {s : String} (usable : isUsable s = true) : s ≠ "" := by
  rintro rfl
  cases usable

end Name

end Matchmaking
