import Mathlib.Data.Finset.Basic
import Matchmaking.Proofs.Constraint.Finalizing
import Matchmaking.Proofs.Matcher.Narrowing
import Matchmaking.Proofs.Matcher.Notes
import Matchmaking.Proofs.Value.Grouping

/-! Finalizing rows again and again. A universe only takes variables out of a row, so one universe
after the other leaves what their intersection leaves; a flexible lower bound comes down to the
number of variables that are left, where lowering it early or late makes no difference. -/
namespace Matchmaking

open Stateful

/-- Whether a place to look for variables has just the identifiers of a finite set. -/
def Value.IsUniverse (place : Value) (u : Finset String) : Prop :=
  ∀ ids : List String, place.sift (ids.map .text) = .ok ((ids.filter (· ∈ u)).map .text)

namespace Value

theorem has_ofList_texts {us : List String} {id : String} :
    (Roster.ofList (us.map .text)).has (.text id) = decide (id ∈ us.toFinset) := by
  rw [Bool.eq_iff_iff, decide_eq_true_eq, List.mem_toFinset, Roster.has_ofList_text]
  simp [List.filterMap_map, Function.comp_def, text?]

/-- A list of identifiers, as often as they may be repeated, is a universe, and so is a tuple of them. -/
theorem isUniverse_items (us : List String) :
    IsUniverse (.list (us.map .text)) us.toFinset ∧ IsUniverse (.tuple (us.map .text)) us.toFinset := by
  have among (ids : List String) : (ids.map Value.text).filter (Roster.ofList (us.map .text)).has =
      (ids.filter (· ∈ us.toFinset)).map .text := by
    rw [List.filter_map]
    simp only [Function.comp_def, has_ofList_texts]
  exact ⟨fun ids => congrArg _ (among ids), fun ids => congrArg _ (among ids)⟩

theorem atMost_whole {v : Value} {t : Int} (number : v.number? = some (.whole t)) (count : Int) :
    v.atMost count = .ok (if count < t then .int count else v) := by
  simp only [atMost, Value.number, number, orWrongKind, ok_bind, pure_eq_ok, Number.lt_whole, decide_eq_true_eq]

end Value

namespace Constraint

variable {c : Constraint} {ids : List String} {t : Int} {u v : Finset String} {place other : Value}

def lowered (c : Constraint) (t : Int) (count : Nat) : Value :=
  if c.isLenient ∧ (count : Int) < t then .int count else c.target

def survivor (c : Constraint) (t : Int) (left : List String) : Option Constraint :=
  if left = [] then none else some { c with unknowns := left.map .text, target := c.lowered t left.length }

theorem keeping_texts (number : c.target.number? = some (.whole t)) (left : List String) :
    c.keeping (left.map .text) = .ok (c.survivor t left) := by
  rw [keeping, survivor, lowered]
  by_cases none : left = []
  · simp [none]
  · have some : (left.map Value.text).isEmpty = false := by simpa using none
    rw [if_neg (by simp [some]), if_neg none, Value.atMost_whole number, List.length_map]
    cases c.isLenient <;> simp

theorem finalize_eq (texts : c.unknowns = ids.map .text) (number : c.target.number? = some (.whole t))
    (given : place.IsUniverse u) : c.finalize (some place) = .ok (c.survivor t (ids.filter (· ∈ u))) := by
  rw [finalize, texts, given ids, ok_bind, keeping_texts number]

theorem survivor_eq_none {left : List String} : c.survivor t left = none ↔ left = [] := by
  rw [survivor]
  split <;> simp [*]

theorem survivor_eq_some {left : List String} {row : Constraint} (survives : c.survivor t left = some row) :
    row = { c with unknowns := left.map .text, target := c.lowered t left.length } := by
  rw [survivor] at survives
  split at survives
  · cases survives
  · exact (Option.some.inj survives).symm

def loweredWhole (c : Constraint) (t : Int) (count : Nat) : Int :=
  if c.isLenient ∧ (count : Int) < t then count else t

theorem number_lowered (number : c.target.number? = some (.whole t)) (count : Nat) :
    (c.lowered t count).number? = some (.whole (c.loweredWhole t count)) := by
  rw [lowered, loweredWhole]
  split
  · rfl
  · exact number

/-- A target that has been lowered is lowered further to a lesser number just as if it had not been. -/
theorem lowered_lowered {unknowns : List Value} {more less : Nat} (fewer : less ≤ more) :
    { c with unknowns, target := c.lowered t more }.lowered (c.loweredWhole t more) less = c.lowered t less := by
  change (if c.isLenient ∧ (less : Int) < c.loweredWhole t more then Value.int less else c.lowered t more) = _
  unfold lowered loweredWhole
  cases c.isLenient with
  | false => simp
  | true =>
    simp only [true_and]
    by_cases lower : (more : Int) < t
    · have also : (less : Int) < t := by omega
      rw [if_pos lower, if_pos lower, if_pos also]
      split
      · rfl
      · exact congrArg Value.int (by omega)
    · rw [if_neg lower, if_neg lower]

def further (place : Value) : Option Constraint → Except Failure (Option Constraint)
  | none => .ok none
  | some row => row.finalize (some place)

theorem further_finalize (texts : c.unknowns = ids.map .text) (number : c.target.number? = some (.whole t))
    (first : place.IsUniverse u) (second : other.IsUniverse v) :
    (c.finalize (some place) >>= further other) = .ok (c.survivor t (ids.filter (· ∈ u ∩ v))) := by
  have left : (ids.filter (· ∈ u)).filter (· ∈ v) = ids.filter (· ∈ u ∩ v) := by
    rw [List.filter_filter]
    exact List.filter_congr fun id _ => by simp [Bool.and_comm]
  rw [finalize_eq texts number first, ok_bind, ← left, survivor]
  by_cases none : ids.filter (· ∈ u) = []
  · rw [if_pos none, further, none]
    rfl
  · rw [if_neg none, further, finalize_eq rfl (number_lowered number _) second, survivor,
      lowered_lowered (List.length_filter_le ..)]
    rfl

/-- A flexible lower bound that is left is met if all that is left is chosen. -/
theorem isSatisfied_survivor (number : c.target.number? = some (.whole t)) (lenient : c.isLenient = true)
    {left : List String} {row : Constraint} (survives : c.survivor t left = some row) {chosen : String → Bool}
    (all : ∀ id ∈ left, chosen id = true) : row.isSatisfied chosen = true := by
  obtain rfl := survivor_eq_some survives
  have few : c.loweredWhole t left.length ≤ left.length := by
    rw [loweredWhole]
    split <;> rename_i not
    · exact Int.le_refl _
    · simp only [lenient, true_and, Int.not_lt] at not
      exact not
  have lower : c.operator = .ge := by simpa [isLenient] using (Bool.and_eq_true_iff.mp lenient).2
  rw [isSatisfied, number_lowered number, Option.any_some, total_text rfl, List.countP_eq_length.mpr all,
    Operator.relates_whole, lower]
  simpa [Operator.holds] using few

/-- A matcher with composers finalizes its rows with its active identifiers as the universe. -/
theorem finalized_of_problem (texts : c.unknowns = ids.map .text) (number : c.target.number? = some (.whole t))
    {m : Matcher} (stored : c ∈ m.constraints) (some : m.composers ≠ []) {taken : Roster} {p : Problem}
    (composed : m.compose taken = .ok p) : ∀ row, c.survivor t (ids.filter (· ∈ m.active.toFinset)) = .some row →
      row ∈ p.constraints := by
  obtain ⟨counts, -, composed⟩ := bind_eq_ok.mp composed
  obtain ⟨kept, finalized, composed⟩ := bind_eq_ok.mp composed
  obtain ⟨objective, -, composed⟩ := bind_eq_ok.mp composed
  cases composed
  obtain ⟨left, listed, keeps⟩ :=
    exists_of_mem_right (mapM_eq_ok.mp finalized).flip (List.mem_append_left counts stored)
  have filled : ¬m.composers.isEmpty = true := by simpa using some
  have narrowed : Matcher.narrowRow m.scope c.unknowns = (ids.filter (· ∈ m.active.toFinset)).map .text := by
    rw [texts, Matcher.narrowRow_text, Matcher.scope, if_neg filled, Matcher.narrow]
    refine congrArg _ (List.filter_congr fun id _ => ?_)
    rw [Bool.eq_iff_iff, Std.HashSet.contains_ofList, List.contains_iff_mem, decide_eq_true_eq, List.mem_toFinset]
  rw [narrowed, keeping_texts number, Except.ok.injEq] at keeps
  intro row survives
  exact List.mem_filterMap.mpr ⟨left, listed, keeps.symm.trans survives⟩

/-- Finalizing a row with a whole target under a finite universe. One universe after the other leaves what their
intersection leaves, and one that is repeated leaves the same. What survives are the identifiers in the universe, in
order and as often as they are listed; the row is dropped if there are none, and is otherwise the same but for the
target. Only a flexible lower bound changes its target, and only one above the number of survivors; it is met if all
survivors are chosen. A matcher that composes its program finalizes a row that it stores with its active identifiers
as the universe, and goes on to store it as it was. -/
theorem finalize_intersects (texts : c.unknowns = ids.map .text) (number : c.target.number? = some (.whole t)) :
    (∀ us : List String,
      Value.IsUniverse (.list (us.map .text)) us.toFinset ∧ Value.IsUniverse (.tuple (us.map .text)) us.toFinset) ∧
    (∀ u v : Finset String, ∀ first second both : Value, first.IsUniverse u → second.IsUniverse v →
      both.IsUniverse (u ∩ v) → (c.finalize (some first) >>= further second) = c.finalize (some both) ∧
        (c.finalize (some first) >>= further first) = c.finalize (some first)) ∧
    (∀ (u : Finset String) (place : Value), place.IsUniverse u → ∃ left, c.finalize (some place) = .ok left ∧
      (left = none ↔ ∀ id ∈ ids, id ∉ u) ∧ ∀ row, left = some row →
        row.unknowns = (ids.filter (· ∈ u)).map .text ∧ row.name = c.name ∧ row.operator = c.operator ∧
        row.flexible = c.flexible ∧ row.remade = .ok row ∧
        (row.target ≠ c.target → c.flexible.truth = true ∧ c.operator = .ge) ∧
        (t ≤ (ids.filter (· ∈ u)).length → row.target = c.target) ∧
        (c.flexible.truth = true → c.operator = .ge → ∀ chosen : String → Bool,
          (∀ id ∈ ids, id ∈ u → chosen id = true) → row.isSatisfied chosen = true)) ∧
    ∀ bench : Bench, bench.IsCoherent → c ∈ bench.desk.matcher.constraints →
      (outcome Bench.problem bench).2.desk = bench.desk ∧
      ∀ p, (outcome Bench.problem bench).1 = .ok p → bench.desk.matcher.composers ≠ [] →
        ∀ place : Value, place.IsUniverse bench.desk.matcher.active.toFinset →
          ∃ left, c.finalize (some place) = .ok left ∧ ∀ row, left = some row → row ∈ p.constraints := by
  refine ⟨Value.isUniverse_items, fun u v first second both inU inV inBoth => ?_, fun u place given => ?_,
    fun bench coherent stored => ⟨(Bench.problem_tells.leaves coherent).2, fun p composed some place given => ?_⟩⟩
  · rw [further_finalize texts number inU inV, finalize_eq texts number inBoth]
    rw [further_finalize texts number inU inU, finalize_eq texts number inU, Finset.inter_self]
    exact ⟨rfl, rfl⟩
  · refine ⟨_, finalize_eq texts number given, by simp [survivor_eq_none, List.filter_eq_nil_iff], fun row survives => ?_⟩
    obtain rfl := survivor_eq_some survives
    refine ⟨rfl, rfl, rfl, rfl, rfl, fun changed => ?_, fun enough => ?_, fun flexible lower chosen all => ?_⟩
    · by_contra rigid
      have kept : ¬c.isLenient = true := by simpa [isLenient] using rigid
      exact changed (if_neg fun both => kept both.1)
    · exact if_neg fun both => absurd both.2 (Int.not_lt.mpr enough)
    · refine isSatisfied_survivor number (by simp [isLenient, flexible, lower]) survives fun id member => ?_
      obtain ⟨inside, held⟩ := List.mem_filter.mp member
      exact all id inside (by simpa using held)
  · rw [Bench.problem_tells.answers coherent] at composed
    exact ⟨_, finalize_eq texts number given, finalized_of_problem texts number stored some composed⟩

/-- A row of two identifiers, one of them listed twice, that asks for three and is left with the one that is listed
twice, and then with none. -/
theorem finalize_intersects_of_three :
    let c : Constraint := ⟨[.text "v0", .text "v1", .text "v0"], .ge, .int 3, .null, .bool true⟩
    (c.finalize (some (.list [.text "v0"])) >>= further (.list [.text "v1"])) = c.finalize (some (.list [])) ∧
    ∃ row, c.finalize (some (.list [.text "v0"])) = .ok (some row) ∧ row.unknowns = [.text "v0", .text "v0"] ∧
      row.isSatisfied (fun _ => true) = true := by
  let c : Constraint := ⟨[.text "v0", .text "v1", .text "v0"], .ge, .int 3, .null, .bool true⟩
  have texts : c.unknowns = ["v0", "v1", "v0"].map .text := rfl
  have number : c.target.number? = some (.whole 3) := rfl
  obtain ⟨universes, intersects, survives, -⟩ := finalize_intersects texts number
  have apart : ["v0"].toFinset ∩ ["v1"].toFinset = ([] : List String).toFinset := by decide
  have nothing : Value.IsUniverse (.list []) (["v0"].toFinset ∩ ["v1"].toFinset) := apart ▸ (universes []).1
  obtain ⟨left, found, dropped, kept⟩ := survives _ _ (universes ["v0"]).1
  refine ⟨(intersects _ _ _ _ _ (universes ["v0"]).1 (universes ["v1"]).1 nothing).1, ?_⟩
  cases left with
  | none => exact absurd (dropped.mp rfl "v0" List.mem_cons_self) (by decide)
  | some row =>
    obtain ⟨unknowns, -, -, -, -, -, -, met⟩ := kept row rfl
    exact ⟨row, found, unknowns.trans (by simp), met rfl rfl _ fun _ _ _ => rfl⟩

end Constraint

end Matchmaking
