import Matchmaking.Proofs.Value.Mapping
import Matchmaking.Value.Reading

/-! What a reader of one value after the other finds. It has the given keys, and all data but
streams that were read before are as they were given. -/
namespace Matchmaking

variable {read : List Nat} {entries : Keyed Value}

namespace Value

variable {v : Value}

theorem behind_of_not_isStream (lasting : v.isStream = false) : v.behind read = v := by
  cases v with
  | stream => cases lasting
  | _ => rfl

/-- A value is left as it is or has nothing left. -/
theorem behind_cases (read : List Nat) (v : Value) : v.behind read = v ∨ (v.behind read).items = .ok [] := by
  cases v with
  | stream mark items =>
    by_cases old : mark ∈ read
    · exact .inr (by rw [behind, if_pos old]; rfl)
    · exact .inl (by rw [behind, if_neg old])
  | _ => exact .inl rfl

@[simp] theorem behind_nil (v : Value) : v.behind [] = v := by
  cases v <;> simp [behind]

end Value

namespace Keyed

theorem keys_inTurn (entries : Keyed Value) : (entries.inTurn read).keys = entries.keys := by
  induction entries generalizing read with
  | nil => rfl
  | cons entry rest ih => exact congrArg (entry.1 :: ·) ih

theorem IsMapping.inTurn (mapping : entries.IsMapping) : (entries.inTurn read).IsMapping := by
  rw [IsMapping, keys_inTurn]
  exact mapping

theorem inTurn_of_lasting (lasting : ∀ entry ∈ entries, entry.2.isStream = false) :
    entries.inTurn read = entries := by
  induction entries generalizing read with
  | nil => rfl
  | cons entry rest ih =>
    obtain ⟨first, others⟩ := List.forall_mem_cons.mp lasting
    rw [inTurn, Value.behind_of_not_isStream first, ih others]

/-- The items read of an entry are those of the given datum, if there are any. -/
theorem mem_inTurn {entry : Value × Value} (member : entry ∈ entries.inTurn read) :
    ∃ v, (entry.1, v) ∈ entries ∧ (entry.2 = v ∨ entry.2.items = .ok []) := by
  induction entries generalizing read with
  | nil => cases member
  | cons own rest ih =>
    rcases List.mem_cons.mp member with rfl | later
    · exact ⟨own.2, List.mem_cons_self, Value.behind_cases read own.2⟩
    · obtain ⟨v, listed, left⟩ := ih later
      exact ⟨v, List.mem_cons_of_mem _ listed, left⟩

theorem isStream_of_get? (lasting : ∀ entry ∈ entries, entry.2.isStream = false) {key v : Value}
    (found : entries.get? key = some v) : v.isStream = false := by
  obtain ⟨entry, first, rfl⟩ := Option.map_eq_some_iff.mp found
  exact lasting entry (List.mem_of_find?_eq_some first)

end Keyed

end Matchmaking
