import Mathlib.Algebra.Group.Nat.Defs
import Matchmaking.Proofs.Success
import Matchmaking.Space.Identifier

/-! Identifiers read back. What is written for a row of positions is read as that row, and of all
texts that are read as a row just the one is written for it whose numerals are plain: digits of
the one script, without a leading zero. Numerals beyond the limit of digits are not read. -/
namespace Matchmaking

namespace Text

theorem range_of_isDigit {c : Char} (digit : c.isDigit = true) : 48 ≤ c.toNat ∧ c.toNat ≤ 57 := by
  simpa [Char.isDigit, UInt32.le_iff_toNat_le] using digit

theorem digitValue?_of_isDigit {c : Char} (digit : c.isDigit = true) :
    digitValue? c = some (c.toNat - 48) := by
  have range := range_of_isDigit digit
  simp [digitValue?, digitZeros, range.1, range.2]

theorem isDigit_of_ascii {c : Char} (digit : c.isDigit = true) : isDigit c = true := by
  simp [isDigit, digitValue?_of_isDigit digit]

theorem digitChar_digitValue {c : Char} (digit : c.isDigit = true) :
    Nat.digitChar (c.toNat - 48) = c := by
  have range := range_of_isDigit digit
  have all : ∀ n < 58, 48 ≤ n → Nat.digitChar (n - 48) = Char.ofNat n := by decide
  rw [all _ (by omega) range.1, Char.ofNat_toNat]

theorem digitsValue_toDigits (n : Nat) : digitsValue (Nat.toDigits 10 n) = n := by
  have plain : ∀ (digits : List Char) (total : Nat), (∀ c ∈ digits, c.isDigit = true) →
      digits.foldl (fun total c => 10 * total + (digitValue? c).getD 0) total =
        Nat.ofDigitChars 10 digits total := by
    intro digits
    induction digits with
    | nil => simp
    | cons c rest ih =>
      intro total all
      rw [List.foldl_cons, Nat.ofDigitChars_cons, digitValue?_of_isDigit (all c List.mem_cons_self)]
      exact ih _ fun d member => all d (List.mem_cons_of_mem _ member)
  rw [digitsValue, plain _ _ fun c member =>
    Nat.isDigit_of_mem_toDigits (by omega) (by omega) member, Nat.ofDigitChars_ten_toDigits]

theorem digitValue?_le {c : Char} {d : Nat} (digit : digitValue? c = some d) : d ≤ 9 := by
  obtain ⟨start, found, rfl⟩ := Option.map_eq_some_iff.mp digit
  have range : start ≤ c.toNat ∧ c.toNat ≤ start + 9 := by simpa using List.find?_some found
  omega

theorem digitsValue_lt (digits : List Char) : digitsValue digits < 10 ^ digits.length := by
  have bound (digits : List Char) (total : Nat) :
      digits.foldl (fun total c => 10 * total + (digitValue? c).getD 0) total <
        (total + 1) * 10 ^ digits.length := by
    induction digits generalizing total with
    | nil => simp
    | cons c rest ih =>
      have digit : (digitValue? c).getD 0 ≤ 9 := by
        cases value : digitValue? c with
        | none => simp
        | some d => exact digitValue?_le value
      refine Nat.lt_of_lt_of_le (ih _) ?_
      have step : 10 * total + (digitValue? c).getD 0 + 1 ≤ (total + 1) * 10 := by omega
      rw [List.length_cons, Nat.pow_succ', ← Nat.mul_assoc]
      exact Nat.mul_le_mul_right _ step
  simpa [digitsValue] using bound digits 0

/-- Digits after those of a positive number are those of the number that they lead to. -/
theorem toDigits_append_digits {total : Nat} (positive : 0 < total) {digits : List Char}
    (all : digits.all Char.isDigit = true) :
    Nat.toDigits 10 total ++ digits =
      Nat.toDigits 10 (digits.foldl (fun total c => 10 * total + (digitValue? c).getD 0) total) := by
  induction digits generalizing total with
  | nil => simp
  | cons c rest ih =>
    obtain ⟨digit, others⟩ : c.isDigit = true ∧ rest.all Char.isDigit = true := by simpa using all
    have below : c.toNat - 48 < 10 := by
      have range := Text.range_of_isDigit digit
      omega
    have step : Nat.toDigits 10 total ++ [c] = Nat.toDigits 10 (10 * total + (c.toNat - 48)) := by
      rw [← Nat.toDigits_append_toDigits (by omega) positive below, Nat.toDigits_of_lt_base below,
        digitChar_digitValue digit]
    rw [List.foldl_cons, digitValue?_of_isDigit digit, Option.getD_some, ← ih (by omega) others,
      ← step, List.append_assoc, List.singleton_append]

end Text

namespace Identifier

def isPlainNumeral (piece : List Char) : Bool :=
  piece.all Char.isDigit && (piece == ['0'] || !piece.isEmpty && piece.head? != some '0')

/-- Whether an identifier is written as those of tuples are. -/
def isPlain (s : String) : Bool := (parts? s.toList).any (·.all isPlainNumeral)

theorem head_toDigits_ne_zero {n : Nat} (positive : 0 < n) : (Nat.toDigits 10 n).head? ≠ some '0' := by
  induction n using Nat.strongRecOn with
  | ind n ih =>
    rcases Nat.lt_or_ge n 10 with small | large
    · rw [Nat.toDigits_of_lt_base small]
      simpa using Nat.ne_of_gt positive
    · rw [Nat.toDigits_of_base_le (by omega) large, List.head?_append]
      have rest := ih (n / 10) (by omega) (by omega)
      cases front : (Nat.toDigits 10 (n / 10)).head? with
      | none => exact absurd (List.head?_eq_none_iff.mp front) Nat.toDigits_ne_nil
      | some c => simpa [front] using rest

theorem isPlainNumeral_toDigits (n : Nat) : isPlainNumeral (Nat.toDigits 10 n) = true := by
  have digits : (Nat.toDigits 10 n).all Char.isDigit = true :=
    List.all_eq_true.mpr fun c member => Nat.isDigit_of_mem_toDigits (by omega) (by omega) member
  rcases Nat.eq_zero_or_pos n with rfl | positive
  · decide
  · have := head_toDigits_ne_zero positive
    simp [isPlainNumeral, digits, Nat.toDigits_ne_nil, this]

theorem toDigits_digitsValue {piece : List Char} (plain : isPlainNumeral piece = true) :
    Nat.toDigits 10 (Text.digitsValue piece) = piece := by
  obtain ⟨digits, form⟩ : piece.all Char.isDigit = true ∧
      (piece = ['0'] ∨ piece ≠ [] ∧ piece.head? ≠ some '0') := by
    simpa [isPlainNumeral, and_assoc] using plain
  rcases form with rfl | ⟨some, front⟩
  · decide
  · obtain ⟨c, rest, rfl⟩ := List.exists_cons_of_ne_nil some
    obtain ⟨digit, others⟩ : c.isDigit = true ∧ rest.all Char.isDigit = true := by simpa using digits
    have range := Text.range_of_isDigit digit
    have nonzero : c.toNat ≠ 48 := by
      intro equal
      apply front
      rw [List.head?_cons, ← Char.ofNat_toNat c, equal]
    have first : Nat.toDigits 10 (c.toNat - 48) = [c] := by
      rw [Nat.toDigits_of_lt_base (by omega), Text.digitChar_digitValue digit]
    have positive : 0 < c.toNat - 48 := by omega
    rw [Text.digitsValue, List.foldl_cons, Text.digitValue?_of_isDigit digit, Nat.mul_zero,
      Nat.zero_add, Option.getD_some, ← Text.toDigits_append_digits positive others, first]
    rfl

theorem pieces_ne_nil (separator : Char) (s : List Char) : pieces separator s ≠ [] := by
  cases s with
  | nil => simp [pieces]
  | cons c rest =>
    rw [pieces]
    split
    · simp
    · split <;> simp

theorem pieces_append {separator : Char} {piece : List Char} (free : separator ∉ piece)
    (rest : List Char) :
    pieces separator (piece ++ separator :: rest) = piece :: pieces separator rest := by
  induction piece with
  | nil => simp [pieces]
  | cons c others ih =>
    have different : c ≠ separator := fun equal => free (by simp [equal])
    have free : separator ∉ others := fun member => free (List.mem_cons_of_mem _ member)
    rw [List.cons_append, pieces, if_neg different, ih free]

theorem pieces_single {separator : Char} {piece : List Char} (free : separator ∉ piece) :
    pieces separator piece = [piece] := by
  induction piece with
  | nil => rfl
  | cons c others ih =>
    have different : c ≠ separator := fun equal => free (by simp [equal])
    have free : separator ∉ others := fun member => free (List.mem_cons_of_mem _ member)
    rw [pieces, if_neg different, ih free]

theorem pieces_joinPieces {separator : Char} {found : List (List Char)} (some : found ≠ [])
    (free : ∀ piece ∈ found, separator ∉ piece) : pieces separator (joinPieces separator found) = found := by
  induction found with
  | nil => exact absurd rfl some
  | cons piece rest ih =>
    have first := free piece List.mem_cons_self
    cases rest with
    | nil => exact pieces_single first
    | cons next others =>
      rw [joinPieces, pieces_append first, ih (by simp) fun other member =>
        free other (List.mem_cons_of_mem _ member)]
      simp

theorem joinPieces_cons {separator : Char} {piece : List Char} {rest : List (List Char)}
    (some : rest ≠ []) :
    joinPieces separator (piece :: rest) = piece ++ separator :: joinPieces separator rest := by
  cases rest with
  | nil => exact absurd rfl some
  | cons => rfl

theorem joinPieces_pieces (separator : Char) (s : List Char) :
    joinPieces separator (pieces separator s) = s := by
  induction s with
  | nil => rfl
  | cons c rest ih =>
    have some := pieces_ne_nil separator rest
    rw [pieces]
    split
    · rename_i equal
      rw [joinPieces_cons some, ih, equal, List.nil_append]
    · cases found : pieces separator rest with
      | nil => exact absurd found some
      | cons first others =>
        rw [found] at ih
        cases others with
        | nil => simpa [joinPieces] using ih
        | cons next others => simpa [joinPieces] using ih

theorem numeral_of_nonneg {p : Int} (nonneg : 0 ≤ p) : numeral p = Nat.toDigits 10 p.natAbs := by
  simp [numeral, Int.not_lt.mpr nonneg]

theorem digitsValue_numeral {p : Int} (nonneg : 0 ≤ p) : (Text.digitsValue (numeral p) : Int) = p := by
  rw [numeral_of_nonneg nonneg, Text.digitsValue_toDigits, Int.natAbs_of_nonneg nonneg]

theorem isDigit_of_mem_numeral {p : Int} (nonneg : 0 ≤ p) {c : Char} (member : c ∈ numeral p) :
    c.isDigit = true := by
  rw [numeral_of_nonneg nonneg] at member
  exact Nat.isDigit_of_mem_toDigits (by omega) (by omega) member

/-- The texts of the form of an identifier are a `v` and rows of digits with an `x` in between. -/
theorem parts?_eq_some {s : List Char} {found : List (List Char)} :
    parts? s = some found ↔ s = 'v' :: joinPieces 'x' found ∧ found ≠ [] ∧
      ∀ piece ∈ found, piece ≠ [] ∧ ∀ c ∈ piece, Text.isDigit c = true := by
  constructor
  · intro parts
    unfold parts? at parts
    split at parts
    · rename_i rest
      simp only [Option.ite_none_right_eq_some, Option.some.injEq] at parts
      obtain ⟨digits, rfl⟩ := parts
      refine ⟨by rw [joinPieces_pieces], pieces_ne_nil _ _, ?_⟩
      simpa using digits
    · cases parts
  · rintro ⟨rfl, some, digits⟩
    have free : ∀ piece ∈ found, 'x' ∉ piece := by
      intro piece member inside
      exact absurd ((digits piece member).2 'x' inside) (by decide)
    rw [parts?, pieces_joinPieces some free, if_pos (by simpa using digits)]

/-- A row of positions as it is written has that form, with their numerals. -/
theorem parts?_write {row : List Int} (some : row ≠ []) (nonneg : ∀ p ∈ row, 0 ≤ p) :
    parts? (write row).toList = .some (row.map numeral) := by
  rw [parts?_eq_some]
  refine ⟨by simp [write], by simpa using some, ?_⟩
  intro piece member
  obtain ⟨p, inside, rfl⟩ := List.mem_map.mp member
  exact ⟨by rw [numeral_of_nonneg (nonneg p inside)]; exact Nat.toDigits_ne_nil,
    fun c digit => Text.isDigit_of_ascii (isDigit_of_mem_numeral (nonneg p inside) digit)⟩

theorem write_injective {first second : List Int} (some : first ≠ []) (some' : second ≠ [])
    (nonneg : ∀ p ∈ first, 0 ≤ p) (nonneg' : ∀ p ∈ second, 0 ≤ p)
    (equal : write first = write second) : first = second := by
  have numerals : first.map numeral = second.map numeral := by
    have parts := parts?_write some nonneg
    rwa [equal, parts?_write some' nonneg', Option.some.injEq, eq_comm] at parts
  have values (row : List Int) (nonneg : ∀ p ∈ row, 0 ≤ p) :
      (row.map numeral).map (fun piece => (Text.digitsValue piece : Int)) = row := by
    rw [List.map_map]
    exact (List.map_congr_left fun p member => digitsValue_numeral (nonneg p member)).trans
      (List.map_id _)
  rw [← values first nonneg, numerals, values second nonneg']

theorem position_eq_ok {piece : List Char} {p : Int} :
    position piece = .ok p ↔ piece.length ≤ Numeral.digitLimit ∧ p = Text.digitsValue piece := by
  unfold position
  split
  · simp; omega
  · simp [eq_comm]; omega

theorem read_eq_ok {v : Value} {row : List Int} :
    read v = .ok row ↔ ∃ s found, v.text? = some s ∧ parts? s.toList = some found ∧
      (∀ piece ∈ found, piece.length ≤ Numeral.digitLimit) ∧
      row = found.map fun piece => (Text.digitsValue piece : Int) := by
  unfold read
  cases form : v.text?.bind fun s => parts? s.toList with
  | none =>
    simp only [reduceCtorEq, false_iff]
    rintro ⟨s, found, text, parts, -⟩
    simp [text, parts] at form
  | some found =>
    obtain ⟨s, text, parts⟩ := Option.bind_eq_some_iff.mp form
    have images : List.Forall₂ (fun piece (p : Int) => p = Text.digitsValue piece) found row ↔
        row = found.map fun piece => (Text.digitsValue piece : Int) := by
      rw [← List.forall₂_eq_eq_eq, List.forall₂_map_right_iff]
      exact ⟨List.Forall₂.flip, List.Forall₂.flip⟩
    simp only [mapM_eq_ok, position_eq_ok, text, Option.some.injEq]
    rw [List.forall₂_and_left, images]
    constructor
    · exact fun ⟨short, values⟩ => ⟨s, found, rfl, parts, short, values⟩
    · rintro ⟨_, others, rfl, parts', short, values⟩
      rw [parts, Option.some.injEq] at parts'
      subst parts'
      exact ⟨short, values⟩

theorem read_write {row : List Int} (some : row ≠ [])
    (range : ∀ p ∈ row, 0 ≤ p ∧ p.natAbs < 10 ^ Numeral.digitLimit) :
    read (.text (write row)) = .ok row := by
  rw [read_eq_ok]
  refine ⟨_, _, rfl, parts?_write some fun p member => (range p member).1, ?_, ?_⟩
  · intro piece member
    obtain ⟨p, inside, rfl⟩ := List.mem_map.mp member
    rw [numeral_of_nonneg (range p inside).1, Nat.length_toDigits_le_iff (by omega) (by decide)]
    exact (range p inside).2
  · rw [List.map_map]
    exact ((List.map_congr_left fun p member =>
      digitsValue_numeral (range p member).1).trans (List.map_id _)).symm

theorem of_read {v : Value} {row : List Int} (reads : read v = .ok row) :
    row ≠ [] ∧ ∀ p ∈ row, 0 ≤ p ∧ p.natAbs < 10 ^ Numeral.digitLimit := by
  obtain ⟨s, found, -, parts, short, rfl⟩ := read_eq_ok.mp reads
  refine ⟨by simpa using (parts?_eq_some.mp parts).2.1, fun p member => ?_⟩
  obtain ⟨piece, inside, rfl⟩ := List.mem_map.mp member
  have less := Text.digitsValue_lt piece
  have limit : 10 ^ piece.length ≤ 10 ^ Numeral.digitLimit :=
    Nat.pow_le_pow_right (by omega) (short piece inside)
  rw [Int.natAbs_natCast]
  exact ⟨Int.natCast_nonneg _, Nat.lt_of_lt_of_le less limit⟩

/-- A plain identifier is the one written for what it is read as. -/
theorem write_of_read {s : String} {row : List Int} (reads : read (.text s) = .ok row)
    (plain : isPlain s = true) : write row = s := by
  obtain ⟨t, found, text, parts, -, rfl⟩ := read_eq_ok.mp reads
  cases text
  have numerals : ∀ piece ∈ found, isPlainNumeral piece = true := by
    simpa [isPlain, parts] using plain
  have same : found.map (numeral ∘ fun piece => (Text.digitsValue piece : Int)) = found := by
    refine (List.map_congr_left fun piece member => ?_).trans (List.map_id _)
    rw [Function.comp_apply, numeral_of_nonneg (Int.natCast_nonneg _), Int.natAbs_natCast,
      toDigits_digitsValue (numerals piece member), id]
  rw [write, List.map_map, same, ← (parts?_eq_some.mp parts).1, String.ofList_toList]

theorem isPlain_write {row : List Int} (some : row ≠ []) (nonneg : ∀ p ∈ row, 0 ≤ p) :
    isPlain (write row) = true := by
  rw [isPlain, parts?_write some nonneg, Option.any_some, List.all_map, List.all_eq_true]
  intro p member
  rw [Function.comp_apply, numeral_of_nonneg (nonneg p member)]
  exact isPlainNumeral_toDigits _

end Identifier

end Matchmaking
