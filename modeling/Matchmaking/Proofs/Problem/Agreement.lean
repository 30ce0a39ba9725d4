import Mathlib.Tactic.Ring
import Matchmaking.Proofs.Library.Real
import Matchmaking.Proofs.Library.Scaled
import Matchmaking.Proofs.Problem.Models

/-! The models that two libraries make of a program describe the program, each in its own way. -/
namespace Matchmaking

open Stateful

theorem Keyed.weigh_scaled {β : Type} {chosen : String → Bool} {amount : β → Int} {size : β → Rat} {factor : Rat}
    {entries : Keyed β} (each : ∀ entry ∈ entries, (amount entry.2 : Rat) = factor * size entry.2) :
    ((weigh chosen amount entries : Int) : Rat) = factor * weigh chosen size entries := by
  induction entries with
  | nil => simp [weigh]
  | cons entry rest ih =>
    obtain ⟨first, others⟩ := List.forall_mem_cons.mp each
    have tail := ih others
    unfold weigh at tail ⊢
    rw [List.map_cons, List.sum_cons, List.map_cons, List.sum_cons, Int.cast_add, tail]
    split
    · rw [first]
      ring
    · ring

namespace Problem

variable {ids : List String} {p : Problem}

/-- Both libraries make a model of a program, whose variables are as many as those of the program. Whatever is chosen
of these, the rows of both models hold just if the rows of the program do, and their objectives are the cost
of the choice, counted in ones and in thousandths. -/
theorem models_agree {L : RealLibrary} {S : L.Sense} {K : ScaledLibrary} {T : K.Sense} (lawful : S.Lawful)
    (lawful' : T.Lawful) (modest : p.IsModest ids) : ∃ real unknowns scaled unknowns',
      Answers (L.build p) (real, unknowns) ∧ Answers (K.build p) (scaled, unknowns') ∧
      unknowns.Declares ids ∧ unknowns'.Declares ids ∧
      ∀ chosen, (∃ σ, unknowns.Carries chosen σ) ∧ (∃ τ, unknowns'.Carries chosen τ) ∧
        ∀ σ τ, unknowns.Carries chosen σ → unknowns'.Carries chosen τ →
          (S.Satisfied real σ ↔ p.isSatisfied chosen = true) ∧ (T.Satisfied scaled τ ↔ p.isSatisfied chosen = true) ∧
          S.cost real σ = p.cost chosen ∧ T.cost scaled τ = 1000 * p.cost chosen := by
  have counted : ∀ term ∈ p.terms, ∃ k : Int, term.2.Counts k ∧ scaledWeight term.2 = .ok (1000 * k) ∧
      (1000 * k).natAbs < 2 ^ 63 := by
    intro term member
    obtain ⟨-, k, small, counts⟩ := modest.objective term (List.mem_of_mem_filter member)
    exact ⟨k, counts, scaledWeight_eq counts small, by omega⟩
  obtain ⟨real, unknowns, made, declares, agrees⟩ := RealLibrary.build_answers lawful modest
  obtain ⟨scaled, unknowns', made', declares', agrees'⟩ := ScaledLibrary.build_answers lawful' modest.unknowns
    modest.nodup modest.mapping modest.rows fun term member => by
      obtain ⟨k, -, parts, small⟩ := counted term member
      rw [Value.parts_of_scaled parts]
      exact ⟨parts, small⟩
  refine ⟨real, unknowns, scaled, unknowns', made, made', declares, declares', fun chosen =>
    ⟨declares.exists_carries chosen, declares'.exists_carries chosen, fun σ τ carries carries' => ?_⟩⟩
  obtain ⟨satisfied, cost⟩ := agrees chosen σ carries
  obtain ⟨satisfied', cost'⟩ := agrees' chosen τ carries'
  refine ⟨satisfied, satisfied', cost, ?_⟩
  rw [cost', modest.terms_filter declares', ← cost_terms]
  refine Keyed.weigh_scaled fun term member => ?_
  obtain ⟨k, counts, parts, -⟩ := counted term member
  rw [Value.parts_of_scaled parts, counts.worth, Int.cast_mul]
  rfl

/-- A program with a repeated variable, fractional targets and a row over no variables. -/
def mixed : Problem where
  unknowns := .list [.text "a", .text "b"]
  objective := [(.text "a", .int 3), (.text "b", .int (-2))]
  constraints := [
    { unknowns := [.text "a", .text "a", .text "b"], operator := .ge,
      target := .real (.finite false (3 * Nat.pow 2 1073)), name := .text "low" },
    { unknowns := [.text "b"], operator := .le, target := .real (.finite false (Nat.pow 2 1073)),
      name := .text "high" },
    { unknowns := [], operator := .eq, target := .int 0, name := .text "none" }]

/-- Libraries that keep what they are given make models of it that say what it says. -/
theorem models_agree_of_mixed : (∃ real unknowns scaled unknowns',
    Answers ((RealModel.library none).build mixed) (real, unknowns) ∧
    Answers ((ScaledModel.library none).build mixed) (scaled, unknowns') ∧
    ∀ chosen σ τ, unknowns.Carries chosen σ → unknowns'.Carries chosen τ →
      ((RealModel.sense none).Satisfied real σ ↔ mixed.isSatisfied chosen = true) ∧
      ((ScaledModel.sense none).Satisfied scaled τ ↔ mixed.isSatisfied chosen = true) ∧
      (RealModel.sense none).cost real σ = mixed.cost chosen ∧
      (ScaledModel.sense none).cost scaled τ = 1000 * mixed.cost chosen) ∧
    mixed.isSatisfied (· == "a") = true ∧ mixed.isSatisfied (· == "b") = false := by
  have modest : mixed.IsModest ["a", "b"] := {
    unknowns := rfl
    nodup := by decide
    mapping := ⟨by decide, by decide⟩
    objective := by
      intro term member
      simp only [mixed, List.mem_cons, List.not_mem_nil, or_false] at member
      rcases member with rfl | rfl
      · exact ⟨⟨"a", by simp, rfl⟩, 3, by decide, .whole 3, rfl, by decide⟩
      · exact ⟨⟨"b", by simp, rfl⟩, -2, by decide, .whole (-2), rfl, by decide⟩
    rows := by
      intro c member
      simp only [mixed, List.mem_cons, List.not_mem_nil, or_false] at member
      rcases member with rfl | rfl | rfl
      · exact ⟨⟨["a", "a", "b"], rfl, by simp⟩, ⟨_, rfl, by decide +kernel⟩, "low", rfl, by decide +kernel⟩
      · exact ⟨⟨["b"], rfl, by simp⟩, ⟨_, rfl, by decide +kernel⟩, "high", rfl, by decide +kernel⟩
      · exact ⟨⟨[], rfl, by simp⟩, ⟨_, rfl, by decide +kernel⟩, "none", rfl, by decide +kernel⟩
    names := by decide }
  obtain ⟨real, unknowns, scaled, unknowns', made, made', -, -, agree⟩ :=
    models_agree (RealModel.lawful none) (ScaledModel.lawful none) modest
  exact ⟨⟨real, unknowns, scaled, unknowns', made, made', fun chosen => (agree chosen).2.2⟩, by decide +kernel,
    by decide +kernel⟩

end Problem

end Matchmaking
