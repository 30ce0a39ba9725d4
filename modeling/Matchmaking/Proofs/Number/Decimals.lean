import Mathlib.Data.List.TakeWhile
import Matchmaking.Number.Literal

/-! Doubles are written as decimals: digits, then perhaps a point with more digits and perhaps an exponent
with its sign. Just the finite ones are, as `nan` and `inf` do not start with a digit. What has to be
seen is that the shortest decimal of a positive magnitude is not zero, so that a digit is left when the
zeros at its end are dropped. -/
namespace Matchmaking

namespace Numeral

/-- One digit at least, and nothing else. -/
def IsDigits (s : List Char) : Prop := s ≠ [] ∧ ∀ c ∈ s, c.isDigit = true

inductive IsPositional : List Char → Prop
  | whole {front : List Char} (digits : IsDigits front) : IsPositional front
  | point {front places : List Char} (digits : IsDigits front) (fraction : IsDigits places) :
      IsPositional (front ++ '.' :: places)

/-- A decimal without a sign, perhaps with an exponent. -/
inductive IsDecimal : List Char → Prop
  | plain {s : List Char} (digits : IsPositional s) : IsDecimal s
  | power {s places : List Char} {sign : Char} (digits : IsPositional s) (signed : sign = '+' ∨ sign = '-')
      (exponent : IsDigits places) : IsDecimal (s ++ 'e' :: sign :: places)

theorem IsDigits.append {s t : List Char} (digits : IsDigits s) (more : ∀ c ∈ t, c.isDigit = true) :
    IsDigits (s ++ t) :=
  ⟨List.append_ne_nil_of_left_ne_nil digits.1 t, List.forall_mem_append.mpr ⟨digits.2, more⟩⟩

theorem IsDigits.prepend {s t : List Char} (digits : IsDigits t) (more : ∀ c ∈ s, c.isDigit = true) :
    IsDigits (s ++ t) :=
  ⟨List.append_ne_nil_of_right_ne_nil s digits.1, List.forall_mem_append.mpr ⟨more, digits.2⟩⟩

theorem IsDigits.take {s : List Char} {count : Nat} (digits : IsDigits s) (some : count ≠ 0) :
    IsDigits (s.take count) :=
  ⟨by simpa [List.take_eq_nil_iff, some] using digits.1, fun c member => digits.2 c (List.mem_of_mem_take member)⟩

theorem isDigits_zero : IsDigits ['0'] := ⟨List.cons_ne_nil _ _, List.forall_mem_singleton.mpr rfl⟩

theorem isDigits_toDigits (n : Nat) : IsDigits (Nat.toDigits 10 n) :=
  ⟨Nat.toDigits_ne_nil, fun _ member => Nat.isDigit_of_mem_toDigits (by omega) (by omega) member⟩

theorem IsDecimal.head {s : List Char} (decimal : IsDecimal s) : ∃ c, s.head? = some c ∧ c.isDigit = true := by
  have front {s : List Char} (digits : IsDigits s) (rest : List Char) :
      ∃ c, (s ++ rest).head? = some c ∧ c.isDigit = true := by
    obtain ⟨some, all⟩ := digits
    cases s with
    | nil => exact absurd rfl some
    | cons c others => exact ⟨c, rfl, all c List.mem_cons_self⟩
  have positional {s : List Char} (digits : IsPositional s) (rest : List Char) :
      ∃ c, (s ++ rest).head? = some c ∧ c.isDigit = true := by
    cases digits with
    | whole digits => exact front digits rest
    | point digits fraction =>
      rw [List.append_assoc]
      exact front digits _
  cases decimal with
  | plain digits => simpa using positional digits []
  | power digits signed exponent => exact positional digits _

theorem IsDecimal.no_slash {s : List Char} (decimal : IsDecimal s) : '/' ∉ s := by
  have digits {s : List Char} (digits : IsDigits s) : '/' ∉ s := fun member =>
    absurd (digits.2 _ member) (by decide)
  have positional {s : List Char} (plain : IsPositional s) : '/' ∉ s := by
    cases plain with
    | whole front => exact digits front
    | point front places => simp [digits front, digits places]
  cases decimal with
  | plain plain => exact positional plain
  | power plain signed exponent =>
    rcases signed with rfl | rfl <;> simp [positional plain, digits exponent]

/-- A decimal, perhaps behind a sign. -/
def IsLiteral (s : String) : Prop := IsDecimal (splitSign s.toList).2

theorem IsLiteral.no_slash {s : String} (literal : IsLiteral s) : '/' ∉ s.toList := by
  unfold IsLiteral splitSign at literal
  split at literal <;> rename_i shape
  · simpa [shape] using literal.no_slash
  · simpa [shape] using literal.no_slash
  · exact literal.no_slash

theorem splitSign_decimal {s : List Char} (decimal : IsDecimal s) : splitSign s = (false, s) := by
  obtain ⟨c, first, digit⟩ := decimal.head
  unfold splitSign
  split
  · cases first
    cases digit
  · cases first
    cases digit
  · rfl

theorem IsDecimal.isLiteral {s : List Char} (decimal : IsDecimal s) : IsLiteral (String.ofList s) := by
  rw [IsLiteral, String.toList_ofList, splitSign_decimal decimal]
  exact decimal

theorem isLiteral_minus {s : List Char} : IsLiteral (String.ofList ('-' :: s)) ↔ IsDecimal s := by
  rw [IsLiteral, String.toList_ofList, splitSign]

end Numeral

namespace Decimal

variable {units : Nat} {exponent : Int} {d : Decimal}

theorem digits_ne_zero_of_holds (some : units ≠ 0) (held : (Binary64.cell units).holds d.quotient.1 d.quotient.2 = true) :
    d.digits ≠ 0 := by
  intro zero
  have step : 2 ^ Binary64.lastPlace units ≤ units :=
    Nat.le_trans (Nat.pow_le_pow_right (by omega) (by unfold Binary64.lastPlace; omega)) (Nat.log2_self_le some)
  have low : 0 < (Binary64.cell units).low := by
    simp only [Binary64.cell, Nat.pow_eq]
    split <;> omega
  have nothing : d.quotient.1 = 0 := by
    unfold quotient
    split <;> simp [zero]
  have den : 0 < d.quotient.2 := by
    unfold quotient
    split
    · exact Nat.one_pos
    · exact Nat.pow_pos (by omega)
  have positive : 0 < (Binary64.cell units).low * d.quotient.2 := Nat.mul_pos low den
  unfold Cell.holds at held
  rw [nothing] at held
  split at held <;> simp only [Nat.zero_mul, Bool.and_eq_true, decide_eq_true_eq] at held <;> omega

theorem digits_onGrid (some : units ≠ 0) (found : onGrid? units exponent = .some d) : d.digits ≠ 0 := by
  unfold onGrid? at found
  dsimp only at found
  split at found
  · rename_i lower _
    have least := digits_ne_zero_of_holds some lower
    cases found
    dsimp only at least ⊢
    unfold nearestEven
    grind
  · rename_i lower _
    cases found
    exact digits_ne_zero_of_holds some lower
  · cases found
    exact Nat.succ_ne_zero _
  · cases found

theorem digits_shortest (some : units ≠ 0) : (shortest units).digits ≠ 0 := by
  unfold shortest
  dsimp only
  cases found : (List.range 17).findSome? fun (more : Nat) => onGrid? units (leading units - more) with
  | none => exact some
  | some d =>
    obtain ⟨more, -, grid⟩ := List.exists_of_findSome?_eq_some found
    exact digits_onGrid some grid

end Decimal

namespace Binary64

open Numeral

theorem isDigit_zeros {count : Nat} : ∀ c ∈ zeros count, c.isDigit = true := by
  intro c member
  rw [List.eq_of_mem_replicate member]
  rfl

theorem isDigits_significant {d : Decimal} (some : d.digits ≠ 0) : IsDigits (significant d).1 := by
  unfold significant
  dsimp only
  constructor
  · intro none
    rw [List.reverse_eq_nil_iff, List.dropWhile_eq_nil_iff] at none
    have all : ∀ c ∈ Nat.toDigits 10 d.digits, c = '0' := by simpa using none
    have zeros := List.eq_replicate_iff.mpr ⟨rfl, all⟩
    have value := Nat.ofDigitChars_ten_toDigits (n := d.digits)
    rw [zeros, Nat.ofDigitChars_replicate_zero] at value
    exact some (by simpa using value.symm)
  · intro c member
    have own := (List.dropWhile_suffix _).subset (List.mem_reverse.mp member)
    exact (isDigits_toDigits _).2 c (List.mem_reverse.mp own)

variable {digits : List Char}

theorem isDecimal_positional (given : IsDigits digits) (point : Int) : IsDecimal (positional digits point) := by
  unfold positional
  split
  · exact .plain (.point isDigits_zero (given.prepend isDigit_zeros))
  · rename_i large
    have front : IsDigits (digits.take point.toNat ++ zeros (point.toNat - digits.length)) :=
      (given.take (by omega)).append isDigit_zeros
    refine .plain (.point front ?_)
    split
    · exact isDigits_zero
    · rename_i some
      exact ⟨by simpa using some, fun c member => given.2 c (List.mem_of_mem_drop member)⟩

theorem isDecimal_scientific (given : IsDigits digits) (point : Int) : IsDecimal (scientific digits point) := by
  have front : IsDigits (digits.take 1) := given.take Nat.one_ne_zero
  have exponent : IsDigits (zeros (2 - (Nat.toDigits 10 (point - 1).natAbs).length) ++
      Nat.toDigits 10 (point - 1).natAbs) := (isDigits_toDigits _).prepend isDigit_zeros
  have sign : (if point - 1 < 0 then '-' else '+') = '+' ∨ (if point - 1 < 0 then '-' else '+') = '-' := by
    split <;> simp
  unfold scientific exponentText
  split
  · rename_i more
    have some : digits.drop 1 ≠ [] := List.ne_nil_of_length_pos (by simpa using Nat.sub_pos_of_lt more)
    have places : IsDigits (digits.drop 1) := ⟨some, fun c member => given.2 c (List.mem_of_mem_drop member)⟩
    exact .power (.point front places) sign exponent
  · rw [List.append_nil]
    exact .power (.whole front) sign exponent

theorem isDecimal_magnitude (units : Nat) : IsDecimal (magnitude units) := by
  unfold magnitude
  split
  · exact .plain (.point isDigits_zero isDigits_zero)
  · rename_i some
    have given := isDigits_significant (Decimal.digits_shortest some)
    dsimp only
    split
    · exact isDecimal_positional given _
    · exact isDecimal_scientific given _

theorem isLiteral_toText (x : Binary64) : IsLiteral x.toText ↔ x.isFinite = true := by
  have word {s : String} {c : Char} {rest : List Char} (body : (splitSign s.toList).2 = c :: rest)
      (letter : c.isDigit = false) : ¬IsLiteral s := by
    intro decimal
    rw [IsLiteral, body] at decimal
    obtain ⟨_, first, digit⟩ := decimal.head
    cases first
    rw [letter] at digit
    cases digit
  cases x with
  | nan =>
    rw [toText]
    exact iff_of_false (word rfl rfl) Bool.false_ne_true
  | infinite negative => cases negative <;> exact iff_of_false (word rfl rfl) Bool.false_ne_true
  | finite negative units =>
    refine iff_of_true ?_ rfl
    cases negative with
    | false => exact (isDecimal_magnitude units).isLiteral
    | true => exact isLiteral_minus.mpr (isDecimal_magnitude units)

end Binary64

end Matchmaking
