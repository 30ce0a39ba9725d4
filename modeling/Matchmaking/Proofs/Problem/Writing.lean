import Matchmaking.Proofs.Problem.Sheet

/-! Programs with whole weights and targets. Such a program is written just if none of its numbers has
too many digits. -/
namespace Matchmaking

theorem Constraint.IsPlain.exists_shown {c : Constraint} (plain : c.IsPlain) : ∃ row, c.IsShown row := by
  obtain ⟨ids, unknowns⟩ := plain.unknowns
  obtain ⟨t, target⟩ := plain.target
  obtain ⟨name, named, -⟩ := plain.name
  exact ⟨⟨name, ids, c.operator, .whole t⟩, unknowns, rfl, target, named⟩

theorem Value.equal_zero_iff {z : Int} : (Value.int z).equal (.int 0) = true ↔ z = 0 := by
  simp [equal, isNaN, same, sameAtom, number?, sameNumber]

namespace Problem

/-- A program over identifiers whose weights and targets are whole. -/
structure IsPlain (p : Problem) (ids : List String) : Prop where
  unknowns : p.unknowns = .list (ids.map .text)
  objective : ∀ term ∈ p.objective, ∃ id z, term = (.text id, .int z)
  rows : ∀ c ∈ p.constraints, c.IsPlain

def rowNames (p : Problem) : List String := p.constraints.filterMap (·.name.text?)

theorem IsPlain.rowNames_apart {p : Problem} {ids : List String} (plain : p.IsPlain ids) :
    ∀ name ∈ p.rowNames, Identifier.hasForm name = false := by
  intro name member
  obtain ⟨c, listed, text⟩ := List.mem_filterMap.mp member
  obtain ⟨s, named, apart⟩ := (plain.rows c listed).name
  rw [named] at text
  rwa [← Option.some.inj text]

/-- Whether all weights and targets have so few digits that they can be written. -/
def Fits (p : Problem) : Prop :=
  (∀ term ∈ p.objective, ∀ z, term.2 = .int z → Numeral.Fits z) ∧
    ∀ c ∈ p.constraints, ∀ t, c.target = .int t → Numeral.Fits t

variable {p : Problem} {ids : List String}

theorem mem_terms_int {v : Value} {z : Int} : (v, .int z) ∈ p.terms ↔ (v, .int z) ∈ p.objective ∧ z ≠ 0 := by
  simp [terms, List.mem_filter, ← Value.equal_zero_iff]

/-- A weight of zero is left out, but it could be written. -/
theorem forall_terms (p : Problem) : (∀ term ∈ p.terms, ∀ z, term.2 = .int z → Numeral.Fits z) ↔
    ∀ term ∈ p.objective, ∀ z, term.2 = .int z → Numeral.Fits z := by
  constructor
  · rintro each ⟨v, weight⟩ member z whole
    by_cases zero : z = 0
    · rw [zero]
      exact Numeral.fits_of_digit (by decide)
    · have equal : weight = .int z := whole
      rw [equal] at member
      exact each _ (mem_terms_int.mpr ⟨member, zero⟩) z rfl
  · exact fun each term member => each term (List.mem_of_mem_filter member)

structure IsWhole (p : Problem) : Prop where
  weights : ∀ term ∈ p.objective, ∃ z, term.2 = .int z
  targets : ∀ c ∈ p.constraints, ∃ t, c.target = .int t

theorem IsPlain.isWhole (plain : p.IsPlain ids) : p.IsWhole where
  weights term member := by
    obtain ⟨id, z, rfl⟩ := plain.objective term member
    exact ⟨z, rfl⟩
  targets c member := (plain.rows c member).target

theorem IsShown.fits_iff {sheet : Sheet} (shown : p.IsShown sheet) (whole : p.IsWhole) : sheet.Fits ↔ p.Fits := by
  have single (n : Number) (isInt : ∃ z, Value.ofNumber n = .int z) :
      n.Fits ↔ ∀ z, Value.ofNumber n = .int z → Numeral.Fits z := by
    obtain ⟨z, found⟩ := isInt
    cases n with
    | whole z => simp [Value.ofNumber, Number.Fits]
    | ratio | real => cases found
  have terms : (∀ term ∈ sheet.terms, term.1.Fits) ↔ ∀ term ∈ p.terms, ∀ z, term.2 = .int z → Numeral.Fits z := by
    have weights : ∀ term ∈ sheet.terms, ∃ z, Value.ofNumber term.1 = .int z := by
      intro term member
      have listed : (Value.text term.2, Value.ofNumber term.1) ∈ p.terms := by
        rw [shown.terms]
        exact List.mem_map_of_mem member
      exact whole.weights _ (List.mem_of_mem_filter listed)
    rw [shown.terms, List.forall_mem_map]
    exact forall₂_congr fun term member => single term.1 (weights term member)
  refine and_congr (terms.trans (forall_terms p)) ?_
  constructor
  · intro each c member t target
    obtain ⟨row, inside, same⟩ := exists_of_mem_right shown.rows.flip member
    rw [same.target] at target
    exact (single row.target ⟨t, target⟩).mp (each row inside) t target
  · intro each row member
    obtain ⟨c, inside, same⟩ := exists_of_mem_right shown.rows member
    have isInt := whole.targets c inside
    rw [same.target] at isInt
    refine (single row.target isInt).mpr fun t target => each c inside t ?_
    rw [same.target, target]

/-- A program over identifiers is written in some way if its terms and rows are. -/
theorem exists_shown (unknowns : p.unknowns = .list (ids.map .text))
    (terms : ∀ term ∈ p.terms, ∃ id n, term = (.text id, .ofNumber n))
    (rows : ∀ c ∈ p.constraints, ∃ row, c.IsShown row) : ∃ sheet, p.IsShown sheet ∧ sheet.ids = ids := by
  have each : ∀ term ∈ p.terms, ∃ shown : Number × String, term = (.text shown.2, .ofNumber shown.1) := by
    intro term member
    obtain ⟨id, n, rfl⟩ := terms term member
    exact ⟨(n, id), rfl⟩
  obtain ⟨shownTerms, related⟩ := exists_forall₂ each
  obtain ⟨shownRows, related'⟩ := exists_forall₂ rows
  refine ⟨⟨shownTerms, shownRows, ids⟩, ⟨unknowns, ?_, related'⟩, rfl⟩
  rw [← List.forall₂_eq_eq_eq, List.forall₂_map_right_iff]
  exact related

open Stateful

theorem toText_ends (plain : p.IsPlain ids) : p.Fits ∧ (∃ text, Answers p.toText text) ∨
    ¬p.Fits ∧ Fails p.toText .numeralTooLong := by
  obtain ⟨sheet, shown, -⟩ := exists_shown plain.unknowns
    (fun term member => by
      obtain ⟨id, z, rfl⟩ := plain.objective term (List.mem_of_mem_filter member)
      exact ⟨id, .whole z, rfl⟩)
    fun c member => (plain.rows c member).exists_shown
  obtain ⟨written, unwritten⟩ := toText_shown shown
  rw [shown.fits_iff plain.isWhole] at written unwritten
  by_cases fits : p.Fits
  · exact .inl ⟨fits, _, written fits⟩
  · exact .inr ⟨fits, unwritten fits⟩

end Problem

end Matchmaking
