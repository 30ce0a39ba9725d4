import Matchmaking.Proofs.Constraint.Keeping
import Matchmaking.Proofs.Number.Order

/-! The relation that a row was written with and the one it is kept in. A strict relation is kept as
an inclusive one to a target moved by one, which is the same thing unless the target is a fraction;
of a fraction the kept row asks for more. A row that is left with its variables is made anew from
its own parts, and nothing is moved a second time. -/
namespace Matchmaking

namespace Text

variable {blank : Char → Bool}

theorem dropWhile_append {before s : List Char} (left : ∀ c ∈ before, blank c = true)
    (bare : ∀ c ∈ s, blank c = false) (rest : List Char) (some : s ≠ []) :
    (before ++ (s ++ rest)).dropWhile blank = s ++ rest := by
  rw [List.dropWhile_append_of_pos left]
  cases s with
  | nil => exact absurd rfl some
  | cons c s =>
    have solid : ¬blank c = true := by simp [bare c List.mem_cons_self]
    rw [List.cons_append, List.dropWhile_cons_of_neg solid]

theorem trim_between {before word after : List Char} (left : ∀ c ∈ before, blank c = true)
    (right : ∀ c ∈ after, blank c = true) (solid : ∀ c ∈ word, blank c = false) (some : word ≠ []) :
    trim blank (before ++ (word ++ after)) = word := by
  have back := dropWhile_append (fun c member => right c (List.mem_reverse.mp member))
    (fun c member => solid c (List.mem_reverse.mp member)) [] (mt List.reverse_eq_nil_iff.mp some)
  rw [List.append_nil] at back
  rw [trim, dropWhile_append left solid after some, trimEnd, List.reverse_append, back, List.reverse_reverse]

end Text

/-- The relations that a row can be written with. -/
inductive Comparison where
  | eq
  | le
  | ge
  | lt
  | gt
  deriving DecidableEq, Repr

namespace Comparison

def words : Comparison → List String
  | .eq => ["=", "=="]
  | .le => ["<=", "=<"]
  | .ge => [">=", "=>"]
  | .lt => ["<"]
  | .gt => [">"]

/-- Whether a text spells a relation, with blanks around the word. -/
def IsSpelled (r : Comparison) (text : String) : Prop :=
  ∃ before after : List Char, ∃ word ∈ r.words, (∀ c ∈ before, Text.isBlank c = true) ∧
    (∀ c ∈ after, Text.isBlank c = true) ∧ text.toList = before ++ (word.toList ++ after)

def holds (r : Comparison) (sum target : Number) : Bool :=
  match r with
  | .eq => sum.eq target
  | .le => sum.le target
  | .ge => target.le sum
  | .lt => sum.lt target
  | .gt => target.lt sum

def isStrict : Comparison → Bool
  | .lt | .gt => true
  | _ => false

def inclusive : Comparison → Operator
  | .eq => .eq
  | .le | .lt => .le
  | .ge | .gt => .ge

def shift : Comparison → Int
  | .lt => -1
  | .gt => 1
  | _ => 0

variable {r : Comparison} {text : String}

theorem spelled?_of_mem {word : String} (listed : word ∈ r.words) :
    Operator.spelled? word = some (r.inclusive, r.shift) := by
  cases r <;> simp only [words, List.mem_cons, List.not_mem_nil, or_false] at listed
  case lt | gt => rw [listed]; rfl
  all_goals rcases listed with rfl | rfl <;> rfl

theorem solid_of_mem {word : String} (listed : word ∈ r.words) :
    word.toList ≠ [] ∧ ∀ c ∈ word.toList, Text.isBlank c = false := by
  have all : r.words.all (fun word => !word.toList.isEmpty && word.toList.all (!Text.isBlank ·)) = true := by
    cases r <;> decide
  simpa using List.all_eq_true.mp all word listed

theorem normalize_eq (spelled : r.IsSpelled text) (target : Value) :
    Operator.normalize (.text text) target = do return (r.inclusive, ← target.add (.int r.shift)) := by
  obtain ⟨before, after, word, listed, left, right, shape⟩ := spelled
  obtain ⟨some, solid⟩ := solid_of_mem listed
  have shown : Failure.shown (.text text) = .ok text := rfl
  simp only [Operator.normalize, shown, ok_bind, shape, Text.trim_between left right solid some, String.ofList_toList,
    spelled?_of_mem listed]

end Comparison

namespace Number

/-- A number that is no whole number but finite. -/
def isFractional : Number → Bool
  | .whole _ => false
  | .ratio q => q.den != 1
  | .real x => x.isFinite && !x.isInteger

/-- A number as it can occur: a double is one of those there are. -/
def IsExact : Number → Prop
  | .real x => x.IsDouble
  | _ => True

/-- Whether whole numbers up to a count and a number next to a target stay apart as doubles. -/
def Resolves (target : Number) (count : Nat) : Prop :=
  match target with
  | .real (.finite _ units) => count < 2 ^ 53 ∨ units < 2 ^ 53 * Binary64.one
  | _ => True

end Number

namespace Comparison

variable {r : Comparison} {target moved : Number} {k count : Nat}

/-- An inclusive relation is kept as it is. -/
theorem relates_of_not_strict (same : r.isStrict = false) (exact : target.IsExact)
    (added : target.add? (.whole r.shift) = some moved) (sum : Number) :
    r.inclusive.relates sum moved = r.holds sum target := by
  have still : r.shift = 0 := by
    cases r with
    | lt | gt => cases same
    | _ => rfl
  rw [still] at added
  cases target with
  | whole v =>
    rw [Number.add?, Int.add_zero] at added
    cases added
    cases r with
    | lt | gt => cases same
    | _ => rfl
  | ratio q =>
    rw [Number.add?, Rat.intCast_zero, Rat.add_zero] at added
    cases added
    cases r with
    | lt | gt => cases same
    | _ => rfl
  | real x =>
    rw [Number.add?_real (Binary64.toReal?_whole (by decide)), Int.natAbs_zero, Nat.zero_mul] at added
    have moved_eq : moved = .real (x.add .zero) := (Option.some.inj added).symm
    have place : x.rank? = (x.add .zero).rank? := (Binary64.rank?_add_zero exact).symm
    rw [moved_eq]
    have right : Number.compare? sum (.real x) = Number.compare? sum (.real (x.add .zero)) := by
      cases sum <;> simp only [Number.compare?, Number.rank?, place]
    have left : Number.compare? (.real x) sum = Number.compare? (.real (x.add .zero)) sum := by
      cases sum <;> simp only [Number.compare?, Number.rank?, place]
    cases r
    case lt | gt => cases same
    all_goals simp only [inclusive, Operator.relates, holds, Number.eq, Number.le, left, right]

open Binary64 (one signed)

theorem relates_of_not_finite (strict : r.isStrict = true) {x : Binary64} (far : x.isFinite = false)
    (added : Number.add? (.real x) (.whole r.shift) = some moved) :
    r.inclusive.relates (.whole k) moved = r.holds (.whole k) (.real x) := by
  have small : r.shift.natAbs ≤ 2 ^ 53 := by cases r <;> decide
  rw [Number.add?_real (Binary64.toReal?_whole small)] at added
  rw [← Option.some.inj added]
  cases r
  case eq | le | ge => cases strict
  all_goals
    cases x with
    | finite => cases far
    | nan => rfl
    | infinite negative => cases negative <;> rfl

variable {negative : Bool} {units : Nat}

/-- A target that is not above a whole number is, less one, not above the one before. -/
theorem lt_of_le_moved (resolves : Number.Resolves (.real (.finite negative units)) count) (bound : k ≤ count)
    (added : Number.add? (.real (.finite negative units)) (.whole (-1)) = some moved)
    (related : Number.le (.whole k) moved = true) : Number.lt (.whole k) (.real (.finite negative units)) = true := by
  rw [Number.whole_lt_finite]
  by_contra above
  have size := Binary64.signed_le negative units
  obtain ⟨b, small, before, reach⟩ : ∃ b : Nat, b ≤ 2 ^ 53 ∧ b ≤ k ∧ signed negative units ≤ b * one := by
    rcases Nat.lt_or_ge k (2 ^ 53) with few | many
    · exact ⟨k, by omega, Nat.le_refl k, by omega⟩
    · exact ⟨2 ^ 53, Nat.le_refl _, many, by rcases resolves with few | near <;> omega⟩
  have below := Binary64.add?_le_whole added (by decide) (a := b - 1) (by omega) (by rw [Int.sub_mul]; omega)
  have crossed := Number.le_trans related below
  rw [Number.le_whole, decide_eq_true_eq] at crossed
  omega

/-- A target that is not below a whole number is, with one more, not below the next. -/
theorem lt_of_moved_le (resolves : Number.Resolves (.real (.finite negative units)) count) (bound : k ≤ count)
    (added : Number.add? (.real (.finite negative units)) (.whole 1) = some moved)
    (related : Number.le moved (.whole k) = true) : Number.lt (.real (.finite negative units)) (.whole k) = true := by
  rw [Number.finite_lt_whole]
  by_contra below
  have size := Binary64.signed_le negative units
  have small : k < 2 ^ 53 := by
    rcases resolves with few | near
    · omega
    · have less : (k : Int) * one < (2 ^ 53 : Nat) * one := by omega
      exact_mod_cast Binary64.lt_of_mul_one_lt less
  have above := Binary64.whole_le_add? added (by decide) (a := k + 1) (by omega) (by rw [Int.add_mul]; omega)
  have crossed := Number.le_trans above related
  rw [Number.le_whole, decide_eq_true_eq] at crossed
  omega

theorem le_moved_of_lt (resolves : Number.Resolves (.real (.finite negative units)) count) (bound : k ≤ count)
    (whole : Binary64.isInteger (.finite negative units) = true)
    (added : Number.add? (.real (.finite negative units)) (.whole (-1)) = some moved)
    (holds : Number.lt (.whole k) (.real (.finite negative units)) = true) : Number.le (.whole k) moved = true := by
  rw [Number.whole_lt_finite] at holds
  have size := Binary64.signed_le negative units
  obtain ⟨t, count_eq⟩ := Binary64.isInteger_iff.mp whole
  rw [count_eq] at holds size
  have less : (k : Int) < t := Binary64.lt_of_mul_one_lt holds
  have small : k ≤ 2 ^ 53 := by
    rcases resolves with few | near
    · omega
    · have within : t * one < (2 ^ 53 : Nat) * one := by omega
      have := Binary64.lt_of_mul_one_lt within
      omega
  have step : (k : Int) * one ≤ (t - 1) * one :=
    Int.mul_le_mul_of_nonneg_right (by omega) (Int.le_of_lt Binary64.one_pos_int)
  exact Binary64.whole_le_add? added (by decide) (by omega) (by rw [count_eq, ← Int.add_mul]; exact step)

/-- A whole number above a whole target is not below the target and one more. -/
theorem moved_le_of_lt (resolves : Number.Resolves (.real (.finite negative units)) count) (bound : k ≤ count)
    (whole : Binary64.isInteger (.finite negative units) = true)
    (added : Number.add? (.real (.finite negative units)) (.whole 1) = some moved)
    (holds : Number.lt (.real (.finite negative units)) (.whole k) = true) : Number.le moved (.whole k) = true := by
  rw [Number.finite_lt_whole] at holds
  have size := Binary64.signed_le negative units
  obtain ⟨t, count_eq⟩ := Binary64.isInteger_iff.mp whole
  rw [count_eq] at holds size
  have less : t < k := Binary64.lt_of_mul_one_lt holds
  obtain ⟨b, small, before, reach⟩ : ∃ b : Nat, b ≤ 2 ^ 53 ∧ b ≤ k ∧ t + 1 ≤ b := by
    rcases Nat.lt_or_ge k (2 ^ 53) with few | many
    · exact ⟨k, by omega, Nat.le_refl k, by omega⟩
    · rcases resolves with few | near
      · omega
      · have within : t * one < (2 ^ 53 : Nat) * one := by omega
        have := Binary64.lt_of_mul_one_lt within
        exact ⟨2 ^ 53, Nat.le_refl _, many, by omega⟩
  have step : (t + 1) * one ≤ (b : Int) * one :=
    Int.mul_le_mul_of_nonneg_right reach (Int.le_of_lt Binary64.one_pos_int)
  have below := Binary64.add?_le_whole added (by decide) (a := b) (by omega)
    (by rw [count_eq, ← Int.add_mul]; exact step)
  exact Number.le_trans below (by rw [Number.le_whole, decide_eq_true_eq]; omega)

theorem holds_of_relates_ratio {q : Rat} (strict : r.isStrict = true)
    (added : Number.add? (.ratio q) (.whole r.shift) = some moved)
    (related : r.inclusive.relates (.whole k) moved = true) : r.holds (.whole k) (.ratio q) = true := by
  cases added
  cases r with
  | lt =>
    have below := (Number.le_iff_of_worth? rfl rfl).mp related
    rw [shift, Rat.intCast_neg, Rat.intCast_one] at below
    exact (Number.lt_iff_of_worth? rfl rfl).mpr (by grind)
  | gt =>
    have above := (Number.le_iff_of_worth? rfl rfl).mp related
    rw [shift, Rat.intCast_one] at above
    exact (Number.lt_iff_of_worth? rfl rfl).mpr (by grind)
  | _ => cases strict

theorem relates_of_holds_ratio {q : Rat} (strict : r.isStrict = true) (whole : q.den = 1)
    (added : Number.add? (.ratio q) (.whole r.shift) = some moved)
    (holds : r.holds (.whole k) (.ratio q) = true) : r.inclusive.relates (.whole k) moved = true := by
  cases added
  have exact : q = q.num := Rat.ext (Rat.num_intCast _).symm (whole.trans (Rat.den_intCast _).symm)
  cases r with
  | lt =>
    have below := (Number.lt_iff_of_worth? rfl rfl).mp holds
    rw [exact, Rat.intCast_lt_intCast] at below
    refine (Number.le_iff_of_worth? rfl rfl).mpr ?_
    rw [exact, ← Rat.intCast_add, Rat.intCast_le_intCast, shift]
    omega
  | gt =>
    have above := (Number.lt_iff_of_worth? rfl rfl).mp holds
    rw [exact, Rat.intCast_lt_intCast] at above
    refine (Number.le_iff_of_worth? rfl rfl).mpr ?_
    rw [exact, ← Rat.intCast_add, Rat.intCast_le_intCast, shift]
    omega
  | _ => cases strict

theorem holds_of_relates (strict : r.isStrict = true) (resolves : target.Resolves count) (bound : k ≤ count)
    (added : target.add? (.whole r.shift) = some moved) (related : r.inclusive.relates (.whole k) moved = true) :
    r.holds (.whole k) target = true := by
  cases target with
  | whole v =>
    have whole : moved = .whole (v + r.shift) := (Option.some.inj added).symm
    rw [whole] at related
    cases r <;> simp [inclusive, Operator.relates, holds, shift, isStrict] at * <;> omega
  | ratio q => exact holds_of_relates_ratio strict added related
  | real x =>
    cases x with
    | nan => exact (relates_of_not_finite strict rfl added).symm.trans related
    | infinite => exact (relates_of_not_finite strict rfl added).symm.trans related
    | finite negative units =>
      cases r with
      | lt => exact lt_of_le_moved resolves bound added related
      | gt => exact lt_of_moved_le resolves bound added related
      | _ => cases strict

/-- What satisfies a strict relation to no fraction satisfies the kept one. -/
theorem relates_of_holds (strict : r.isStrict = true) (resolves : target.Resolves count) (bound : k ≤ count)
    (plain : target.isFractional = false) (added : target.add? (.whole r.shift) = some moved)
    (holds : r.holds (.whole k) target = true) : r.inclusive.relates (.whole k) moved = true := by
  cases target with
  | whole v =>
    have whole : moved = .whole (v + r.shift) := (Option.some.inj added).symm
    rw [whole]
    cases r <;> simp [inclusive, Operator.relates, Comparison.holds, shift, isStrict] at * <;> omega
  | ratio q => exact relates_of_holds_ratio strict (by simpa [Number.isFractional] using plain) added holds
  | real x =>
    cases x with
    | nan => exact (relates_of_not_finite strict rfl added).trans holds
    | infinite => exact (relates_of_not_finite strict rfl added).trans holds
    | finite negative units =>
      have whole : Binary64.isInteger (.finite negative units) = true := by
        simpa [Number.isFractional, Binary64.isFinite] using plain
      cases r with
      | lt => exact le_moved_of_lt resolves bound whole added holds
      | gt => exact moved_le_of_lt resolves bound whole added holds
      | _ => cases strict

end Comparison

end Matchmaking
