import Matchmaking.Proofs.Success
import Matchmaking.Rule.Count

/-! The numbers that a count asks for, said of the count itself, and the rule that is read off
it: one number, or the least and the greatest of several. -/
namespace Matchmaking

namespace Count

def fixed? : Value → Option Int
  | .int n | .exactly (.int n) => some n
  | _ => none

def span? : Value → Option (Int × Int)
  | .tuple [.int low, .int high] | .list [.int low, .int high] => some (low, high)
  | .between (.int low) (.int high) => some (low, high)
  | .range start stop step => do
    let numbers := (Value.rangeItems start stop step).filterMap Value.whole?
    return (← numbers.min?, ← numbers.max?)
  | _ => none

/-- Whether an element that some active rows hold is in as many selected ones as a count asks
for. Nothing asks for more than there are active, and the padding asks for fewer still. -/
def Agrees (count : Value) (padding : Int) (active selected : Nat) : Prop :=
  match fixed? count, span? count with
  | some n, _ => (selected : Int) = min n active
  | none, some (low, high) =>
    min (min low (active - padding)) active ≤ selected ∧ (selected : Int) ≤ high
  | none, none => True

theorem read_exactly {count : Value} {rule : Count} {n : Int} (asks : fixed? count = some n)
    (read : Count.read count = .ok rule) : rule = .exactly (.int n) := by
  unfold fixed? at asks
  split at asks
  · cases asks
    rw [Count.read] at read
    split at read
    · cases read
    · cases read
      rfl
  · cases asks
    cases read
    rfl
  · cases asks

theorem range_numbers (start stop step : Int) : (Value.rangeItems start stop step).filterMap Value.whole? =
    (List.range (Value.rangeLength start stop step)).map fun (place : Nat) => start + step * place := by
  rw [Value.rangeItems, List.filterMap_map, ← List.filterMap_eq_map]
  rfl

theorem rangeEnds_eq {start stop step low high : Int}
    (asks : span? (.range start stop step) = some (low, high)) : rangeEnds start stop step = (low, high) := by
  have found : ((Value.rangeItems start stop step).filterMap Value.whole?).min? = some low ∧
      ((Value.rangeItems start stop step).filterMap Value.whole?).max? = some high := by
    simpa [span?, Option.bind_eq_some_iff] using asks
  rw [range_numbers, List.min?_eq_some_iff, List.max?_eq_some_iff] at found
  simp only [List.mem_map, List.mem_range, forall_exists_index, and_imp, forall_apply_eq_imp_iff₂] at found
  obtain ⟨⟨⟨i, below, rfl⟩, least⟩, ⟨j, below', rfl⟩, greatest⟩ := found
  have first : 0 < Value.rangeLength start stop step := by omega
  have last : Value.rangeLength start stop step - 1 < Value.rangeLength start stop step := by omega
  have place : ((Value.rangeLength start stop step - 1 : Nat) : Int) = Value.rangeLength start stop step - 1 := by
    omega
  have low := least 0 first
  have high := greatest 0 first
  have low' := least _ last
  have high' := greatest _ last
  rw [place] at low' high'
  have bound : (i : Int) ≤ Value.rangeLength start stop step - 1 := by omega
  have bound' : (j : Int) ≤ Value.rangeLength start stop step - 1 := by omega
  rw [rangeEnds]
  split
  · rename_i forward
    have start_le := Int.mul_nonneg (Int.le_of_lt forward) (Int.natCast_nonneg i)
    have le_last := Int.mul_le_mul_of_nonneg_left bound' (Int.le_of_lt forward)
    rw [Prod.mk.injEq]
    omega
  · rename_i backward
    have le_start := Int.mul_nonpos_of_nonpos_of_nonneg (Int.not_lt.mp backward) (Int.natCast_nonneg j)
    have last_le := Int.mul_le_mul_of_nonpos_left (Int.not_lt.mp backward) bound
    rw [Prod.mk.injEq]
    omega

theorem read_between {count : Value} {rule : Count} {low high : Int} (asks : span? count = some (low, high))
    (read : Count.read count = .ok rule) : rule = .between (.int low) (.int high) := by
  unfold span? at asks
  split at asks
  · cases asks
    rw [Count.read] at read
    split at read
    · cases read
    · cases read
      rfl
  · cases asks
    rw [Count.read] at read
    split at read
    · cases read
    · cases read
      rfl
  · cases asks
    cases read
    rfl
  · rename_i start stop step
    obtain ⟨length, -, read⟩ := bind_eq_ok.mp read
    split at read
    · cases read
    · rw [rangeEnds_eq asks] at read
      cases read
      rfl
  · cases asks

/-- The numbers that a count names if it is a whole number, a range or a pair of whole numbers. -/
def numbers? : Value → Option (List Int)
  | .int n => some [n]
  | .tuple [.int low, .int high] | .list [.int low, .int high] => some [low, high]
  | .range start stop step => some ((Value.rangeItems start stop step).filterMap Value.whole?)
  | _ => none

/-- A count that is taken asks for the one number that it names, which is not negative, or for those from one number up
to the greatest that it names. -/
theorem asks_of_read {count : Value} {rule : Count} {asked : List Int} (names : numbers? count = some asked)
    (read : Count.read count = .ok rule) : (∃ n, fixed? count = some n ∧ 0 ≤ n ∧ n ∈ asked) ∨
      ∃ low high, fixed? count = none ∧ span? count = some (low, high) ∧ low ≤ high ∧
        high ∈ asked ∧ ∀ n ∈ asked, n ≤ high := by
  unfold numbers? at names
  split at names
  · cases names
    rw [Count.read] at read
    split at read
    · cases read
    · exact .inl ⟨_, rfl, by omega, List.mem_singleton_self _⟩
  · cases names
    rw [Count.read] at read
    split at read
    · cases read
    · exact .inr ⟨_, _, rfl, rfl, by omega, by simp, by simp; omega⟩
  · cases names
    rw [Count.read] at read
    split at read
    · cases read
    · exact .inr ⟨_, _, rfl, rfl, by omega, by simp, by simp; omega⟩
  · rename_i start stop step
    cases names
    obtain ⟨length, counted, read⟩ := bind_eq_ok.mp read
    have filled : Value.rangeLength start stop step ≠ 0 := by
      rw [Value.length, Value.counted] at counted
      split at counted
      · cases counted
      · cases counted
        intro none
        rw [if_pos none] at read
        cases read
    have some : (Value.rangeItems start stop step).filterMap Value.whole? ≠ [] := by
      simpa [range_numbers] using filled
    obtain ⟨low, least⟩ := Option.ne_none_iff_exists'.mp (mt List.min?_eq_none_iff.mp some)
    obtain ⟨high, greatest⟩ := Option.ne_none_iff_exists'.mp (mt List.max?_eq_none_iff.mp some)
    have member := List.max?_mem greatest
    refine .inr ⟨low, high, rfl, ?_, ?_, member, ?_⟩
    · simp [span?, least, greatest]
    · exact (List.min?_eq_some_iff.mp least).2 high member
    · exact (List.max?_eq_some_iff.mp greatest).2
  · cases names

/-- A count that is taken agrees with some number of selected rows just if one of the numbers that it names is not
negative. -/
theorem agrees_iff_named {count : Value} {rule : Count} {asked : List Int} (names : numbers? count = some asked)
    (read : Count.read count = .ok rule) (padding : Int) (active : Nat) :
    (∃ selected ≤ active, Agrees count padding active selected) ↔ ∃ n ∈ asked, 0 ≤ n := by
  rcases asks_of_read names read with ⟨n, fixed, nonneg, member⟩ | ⟨low, high, fixed, span, order, member, most⟩
  · refine iff_of_true ⟨(min n active).toNat, by omega, ?_⟩ ⟨n, member, nonneg⟩
    simp only [Agrees, fixed]
    omega
  · simp only [Agrees, fixed, span]
    constructor
    · rintro ⟨selected, -, -, less⟩
      exact ⟨high, member, by omega⟩
    · rintro ⟨n, listed, nonneg⟩
      have less := most n listed
      exact ⟨(min high active).toNat, by omega, by omega, by omega⟩

end Count

end Matchmaking
