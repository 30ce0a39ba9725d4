import Matchmaking.Library.Real
import Matchmaking.Proofs.Problem.Laws

/-! The library for mixed-integer programs that keeps what it is given keeps the laws, whatever its solvers answer. -/
namespace Matchmaking

attribute [local irreducible] Binary64.one Binary64.limit

open Stateful
open Binary64 (one signed)

namespace Target

variable {v : Value} {t : Number} {q : Rat}

theorem coefficient_eq {k : Int} {n : Number} (number : v.number? = some n) (equal : n.eq (.whole k) = true)
    (small : k.natAbs ≤ 2 ^ 53) : coefficient v = .ok n := by
  obtain ⟨negative, real, -⟩ := Number.exists_real equal small
  simp only [coefficient, Value.number, number, Value.orWrongKind, ok_bind, real, Binary64.isFinite]
  rfl

theorem exists_real (modest : t.IsModest) (worth : t.worth? = some q) : ∃ negative units,
    Value.realOf t = .ok (.finite negative units) ∧ (Number.real (.finite negative units)).worth? = some q := by
  rcases modest.forms with ⟨k, rfl, small⟩ | ⟨negative, units, rfl, -⟩
  · cases worth
    refine ⟨_, _, by rw [Value.realOf, Binary64.toReal?_whole small], ?_⟩
    rw [Number.worth?, Binary64.signed_whole, Rat.intCast_mul, Rat.mul_div_cancel (Rat.ne_of_gt Number.one_pos)]
  · exact ⟨negative, units, rfl, worth⟩

theorem total_answers (number : v.number? = some t) (modest : t.IsModest) (worth : t.worth? = some q) :
    ∃ x, Answers (total v) x ∧ (Number.real x).worth? = some q := by
  obtain ⟨negative, units, real, same⟩ := exists_real modest worth
  have summand : summand v = .ok (.finite negative units) := by
    simp only [Target.summand, coefficient, Value.number, number, Value.orWrongKind, ok_bind, real, Binary64.isFinite,
      if_true, pure_eq_ok]
  refine ⟨unsigned (.finite negative units), ?_, ?_⟩
  · rw [total, number, summand, Option.isSome_some, if_pos rfl]
    exact (Answers.lift rfl).bind (.pure _)
  · rw [← same, unsigned]
    split
    · rename_i none
      cases none
      rfl
    · rfl

end Target

namespace RealModel

theorem binary_ok (s : String) : ∃ x, binary (.text s) = .ok x ∧ x.id = .text s := by
  unfold binary
  split
  · exact ⟨_, rfl, rfl⟩
  · exact ⟨_, rfl, rfl⟩

theorem masked_eq {characters s : String} (free : ∀ c ∈ s.toList, characters.toList.contains c = false) :
    masked characters s = s := by
  have same : s.toList.map (fun c => if characters.toList.contains c then '_' else c) = s.toList := by
    refine (List.map_congr_left fun c member => ?_).trans (List.map_id _)
    rw [free c member]
    rfl
  rw [masked, same, String.ofList_toList]

theorem rowName_eq {s : String} (usable : Name.isUsable s = true) :
    (Value.text s).truth = true ∧ rowName (.text s) = .ok s := by
  simp only [Name.isUsable, Bool.and_eq_true] at usable
  have word := usable.1.1
  have plain : ∀ c ∈ s.toList, "-+[] ".toList.contains c = false := by
    intro c member
    have kind : Name.isLetter c = true ∨ ('0' ≤ c && c ≤ '9') = true := by
      cases shape : s.toList with
      | nil => rw [shape] at member; cases member
      | cons first rest =>
        rw [shape, Name.isWord, Bool.and_eq_true, List.all_eq_true] at word
        rw [shape] at member
        rcases List.mem_cons.mp member with rfl | later
        · exact .inl word.1
        · exact Bool.or_eq_true_iff.mp (word.2 c later)
    refine Bool.eq_false_iff.mpr fun held => ?_
    have listed : c ∈ ['-', '+', '[', ']', ' '] := List.contains_iff_mem.mp held
    simp only [List.mem_cons, List.not_mem_nil, or_false] at listed
    rcases listed with rfl | rfl | rfl | rfl | rfl <;> revert kind <;> decide
  have some : s.toList ≠ [] := by
    intro none
    rw [none] at word
    cases word
  refine ⟨?_, congrArg Except.ok (masked_eq plain)⟩
  simpa [Value.truth, Value.length?] using some

def worth (terms : Expression) (σ : Variable → Bool) : Rat :=
  (terms.map fun (x, n) => if σ x then n.worth?.getD 0 else 0).sum

theorem worth_flatten (expressions : List Expression) (σ : Variable → Bool) :
    worth expressions.flatten σ = (expressions.map (worth · σ)).sum := by
  rw [worth, List.map_flatten, List.sum_flatten, List.map_map]
  rfl

theorem worth_once (x : Variable) (n : Number) (σ : Variable → Bool) :
    worth [(x, n)] σ = if σ x then n.worth?.getD 0 else 0 := by simp [worth]

def Relation.Holds (row : Relation) (σ : Variable → Bool) : Prop :=
  row.operator.compares (worth row.terms σ) ((Number.real row.target).worth?.getD 0) = true

def sense (answer : Option RealAnswer) : (library answer).Sense where
  worth := worth
  Holds := Relation.Holds
  Satisfied m σ := ∀ row ∈ m.rows, row.2.Holds σ
  cost m := worth m.objective
  HasRow m s := s ∈ m.used

theorem lawful (answer : Option RealAnswer) : (sense answer).Lawful where
  blank_satisfied σ row member := by simp [library] at member
  blank_hasRow s := Std.HashSet.not_mem_empty
  binary_ok s := (binary_ok s).imp fun _ => And.left
  binary_inj s t x first second := by
    obtain ⟨y, made, own⟩ := binary_ok s
    obtain ⟨z, made', own'⟩ := binary_ok t
    cases made.symm.trans first
    cases made'.symm.trans second
    exact Value.text.inj (own.symm.trans own')
  worth_single x σ := worth_once x (.whole 1) σ
  times_ok weight k x counts small := by
    obtain ⟨n, number, equal⟩ := counts
    refine ⟨[(x, n)], ?_, fun σ => ?_⟩
    · change (do return [(x, ← Target.coefficient weight)]) = Except.ok [(x, n)]
      rw [Target.coefficient_eq number equal small]
      rfl
    · exact (worth_once x n σ).trans (by rw [Number.worth?_of_eq equal, Option.getD_some])
  sum_singles xs := ⟨_, rfl, worth_flatten _⟩
  sum_products terms es _ _ := ⟨_, rfl, worth_flatten es⟩
  relate_ok op xs e target t q _ number modest exact := by
    obtain ⟨x, answers, same⟩ := Target.total_answers number modest exact
    refine ⟨⟨e, op, x⟩, answers.bind (.pure _), fun σ => ?_⟩
    have holds : Relation.Holds ⟨e, op, x⟩ σ ↔
        op.compares (worth e σ) ((Number.real x).worth?.getD 0) = true := Iff.rfl
    rwa [same] at holds
  minimize_ok e m := ⟨_, rfl, fun _ => rfl, fun _ => Iff.rfl, fun _ => Iff.rfl⟩
  minimizeNothing_ok m := ⟨fun _ => rfl, fun _ => Iff.rfl, fun _ => Iff.rfl⟩
  addRow_ok r s m usable fresh := by
    obtain ⟨named, kept⟩ := rowName_eq usable
    have free : m.used.contains s = false :=
      Bool.eq_false_iff.mpr fun held => fresh (Std.HashSet.mem_iff_contains.mpr held)
    refine ⟨{ m with rows := m.rows.push (s, r), used := m.used.insert s }, ?_, fun σ => rfl, fun σ => ?_, fun t => ?_⟩
    · change addRow r (.text s) m = _
      simp only [addRow, named, if_true, kept, ok_bind, pure_eq_ok, free]
      rfl
    · change (∀ row ∈ m.rows.push (s, r), row.2.Holds σ) ↔ (∀ row ∈ m.rows, row.2.Holds σ) ∧ r.Holds σ
      simp only [Array.mem_push, or_imp, forall_and, forall_eq]
    · change t ∈ m.used.insert s ↔ t = s ∨ t ∈ m.used
      rw [Std.HashSet.mem_insert, beq_iff_eq, eq_comm]

end RealModel

end Matchmaking
