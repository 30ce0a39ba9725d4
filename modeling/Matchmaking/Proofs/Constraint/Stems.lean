import Matchmaking.Proofs.Constraint.Naming
import Matchmaking.Proofs.Number.Decimals
import Matchmaking.Proofs.Space.Identifier

/-! Stems that names are numbered under. Whether a numbered name can be used is a matter of its stem and never
of its number: the stem has to be a word, and it must not make an identifier of a variable as soon as
digits stand behind it. No keyword is made, as none has a digit in it. -/
namespace Matchmaking

namespace Identifier

theorem pieces_append_last {separator : Char} {s tail last : List Char} {front : List (List Char)}
    (free : separator ∉ tail) (cut : pieces separator s = front ++ [last]) :
    pieces separator (s ++ tail) = front ++ [last ++ tail] := by
  induction s generalizing front last with
  | nil =>
    obtain ⟨rfl, rfl⟩ : front = [] ∧ last = [] := by
      cases front <;> simp_all [pieces]
    exact pieces_single free
  | cons c rest ih =>
    rw [List.cons_append, pieces]
    rw [pieces] at cut
    obtain ⟨first, others, tailed⟩ := List.exists_cons_of_ne_nil (pieces_ne_nil separator rest)
    by_cases here : c = separator
    · rw [if_pos here] at cut ⊢
      cases front with
      | nil => simp [tailed] at cut
      | cons piece front =>
        obtain ⟨rfl, later⟩ := List.cons.inj cut
        rw [ih later]
        rfl
    · rw [if_neg here, tailed] at cut
      rw [if_neg here]
      cases front with
      | nil =>
        obtain ⟨rfl, rfl⟩ := List.cons.inj cut
        rw [ih (show pieces separator rest = [] ++ [_] from tailed)]
        rfl
      | cons piece front =>
        obtain ⟨rfl, rfl⟩ := List.cons.inj cut
        rw [ih (show pieces separator rest = (first :: front) ++ [last] from tailed)]
        rfl

theorem hasForm_cons (rest : List Char) : hasForm (String.ofList ('v' :: rest)) =
    (pieces 'x' rest).all fun piece => !piece.isEmpty && piece.all Text.isDigit := by
  rw [hasForm, String.toList_ofList, parts?]
  cases (pieces 'x' rest).all fun piece => !piece.isEmpty && piece.all Text.isDigit <;> rfl

/-- Which digits stand behind a text makes no difference to whether it has the form of an identifier. -/
theorem hasForm_append_digits (s : List Char) {tail other : List Char} (digits : Numeral.IsDigits tail)
    (digits' : Numeral.IsDigits other) :
    hasForm (String.ofList (s ++ tail)) = hasForm (String.ofList (s ++ other)) := by
  have last {tail : List Char} (digits : Numeral.IsDigits tail) (piece : List Char) :
      ([piece ++ tail].all fun piece => !piece.isEmpty && piece.all Text.isDigit) = piece.all Text.isDigit := by
    have all : tail.all Text.isDigit = true :=
      List.all_eq_true.mpr fun c member => Text.isDigit_of_ascii (digits.2 c member)
    simp [all, digits.1]
  have separate {tail : List Char} (digits : Numeral.IsDigits tail) : 'x' ∉ tail :=
    fun member => absurd (digits.2 _ member) (by decide)
  have first {c : Char} (digit : c.isDigit = true) : c ≠ 'v' := by
    rintro rfl
    cases digit
  cases s with
  | nil =>
    obtain ⟨c, rest, rfl⟩ := List.exists_cons_of_ne_nil digits.1
    obtain ⟨d, rest', rfl⟩ := List.exists_cons_of_ne_nil digits'.1
    rw [List.nil_append, List.nil_append,
      hasForm_of_head String.toList_ofList (first (digits.2 c List.mem_cons_self)),
      hasForm_of_head String.toList_ofList (first (digits'.2 d List.mem_cons_self))]
  | cons c rest =>
    rw [List.cons_append, List.cons_append]
    by_cases letter : c = 'v'
    · subst letter
      obtain ⟨front, piece, cut⟩ := (List.eq_nil_or_concat' (pieces 'x' rest)).resolve_left (pieces_ne_nil 'x' rest)
      rw [hasForm_cons, hasForm_cons, pieces_append_last (separate digits) cut,
        pieces_append_last (separate digits') cut, List.all_append, last digits, List.all_append, last digits']
    · rw [hasForm_of_head String.toList_ofList letter, hasForm_of_head String.toList_ofList letter]

end Identifier

namespace Name

theorem isLetter_of_digit {c : Char} (digit : c.isDigit = true) : isLetter c = false := by
  rw [← Text.digitChar_digitValue digit]
  have below : c.toNat - 48 < 10 := by
    have range := Text.range_of_isDigit digit
    omega
  have none : ∀ n < 10, isLetter (Nat.digitChar n) = false := by decide
  exact none _ below

theorem isWord_append_digits (s : List Char) {tail : List Char} (digits : Numeral.IsDigits tail) :
    isWord (s ++ tail) = isWord s := by
  have all : tail.all (fun c => isLetter c || ('0' ≤ c && c ≤ '9')) = true := by
    apply List.all_eq_true.mpr
    intro c member
    have digit := digits.2 c member
    simp only [Char.isDigit, Bool.and_eq_true, decide_eq_true_eq] at digit
    simp only [Bool.or_eq_true, Bool.and_eq_true, decide_eq_true_eq]
    exact .inr digit
  cases s with
  | nil =>
    obtain ⟨c, rest, rfl⟩ := List.exists_cons_of_ne_nil digits.1
    have letter : isLetter c = false := isLetter_of_digit (digits.2 c List.mem_cons_self)
    simp [isWord, letter]
  | cons c rest => simp only [isWord, List.cons_append, List.all_append, all, Bool.and_true]

theorem isKeyword_of_digit {s : String} {c : Char} (member : c ∈ s.toList) (digit : c.isDigit = true) :
    isKeyword s = false := by
  have small : c.toLower = c := by
    rw [← Text.digitChar_digitValue digit]
    have below : c.toNat - 48 < 10 := by
      have range := Text.range_of_isDigit digit
      omega
    have same : ∀ n < 10, (Nat.digitChar n).toLower = Nat.digitChar n := by decide
    exact same _ below
  have letters : (keywords.all fun word => !word.toList.any Char.isDigit) = true := by decide
  apply Bool.eq_false_iff.mpr
  intro keyword
  have held : c ∈ (String.ofList (s.toList.map Char.toLower)).toList := by
    rw [String.toList_ofList]
    exact List.mem_map.mpr ⟨c, member, small⟩
  have other := List.all_eq_true.mp letters _ (List.contains_iff_mem.mp keyword)
  rw [List.any_eq_true.mpr ⟨c, held, digit⟩] at other
  cases other

end Name

namespace Namer

/-- Whether a stem is a word that makes no identifier with a number behind it. -/
def isPlainStem (stem : String) : Bool :=
  Name.isWord stem.toList && !Identifier.hasForm (numbered stem 0)

theorem hasForm_numbered (stem : String) (number : Nat) :
    Identifier.hasForm (numbered stem number) = Identifier.hasForm (numbered stem 0) := by
  have form := Identifier.hasForm_append_digits stem.toList (Numeral.isDigits_toDigits number)
    (Numeral.isDigits_toDigits 0)
  simpa [numbered, String.ofList_append] using form

theorem isUsable_numbered (stem : String) (number : Nat) :
    Name.isUsable (numbered stem number) = isPlainStem stem := by
  have digits := Numeral.isDigits_toDigits number
  have keyword : Name.isKeyword (numbered stem number) = false := by
    obtain ⟨c, rest, front⟩ := List.exists_cons_of_ne_nil digits.1
    apply Name.isKeyword_of_digit (c := c)
    · simp [numbered, front]
    · exact digits.2 c (by simp [front])
  have word : Name.isWord (numbered stem number).toList = Name.isWord stem.toList := by
    rw [numbered, String.toList_append, String.toList_ofList, Name.isWord_append_digits _ digits]
  simp [Name.isUsable, isPlainStem, keyword, word, hasForm_numbered stem number]

end Namer

end Matchmaking
