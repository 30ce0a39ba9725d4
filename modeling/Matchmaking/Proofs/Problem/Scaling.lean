import Mathlib.Algebra.Order.Field.Basic
import Mathlib.Algebra.Order.Field.Rat
import Mathlib.Data.Rat.Lemmas
import Mathlib.Tactic.Linarith
import Mathlib.Tactic.NormNum.Basic
import Matchmaking.Proofs.Library.Scaled
import Matchmaking.Proofs.Number.Accuracy
import Matchmaking.Proofs.Problem.Models

/-! What the whole objective of a scaled model says about the costs of the program. Each weight is rounded on its own,
so two choices of variables stand in the order of their costs if these are further apart than all the weights have been
moved for which the choices differ. An optimal choice for the model is no more than that above any other. -/
namespace Matchmaking

open Stateful
open Binary64 (one limit signed nearestUnits)

attribute [local irreducible] Binary64.one Binary64.limit

namespace Value

/-- How far a thousand times a weight is from the parts that it counts as. -/
def stray (weight : Value) : Rat := |1000 * weight.worth - weight.parts|

def IsDouble (weight : Value) : Prop := ∃ negative units, weight.readReal = .ok (.finite negative units) ∧
  weight.worth * (one : Int) = (signed negative units : Int)

def thousandths (k : Int) : Value := .real ((Binary64.ofInt k).divNat 1000)

end Value

/-- How far two choices may come nearer to each other, or may pass each other, by what is rounded: as far as the
weights stray for which the choices differ. -/
def Problem.drift (chosen other : String → Bool) (p : Problem) : Rat :=
  p.terms.weigh (fun id => chosen id != other id) Value.stray

variable {weight : Value} {k : Int} {negative : Bool} {units : Nat}

theorem scaledWeight_infinite {x : Binary64} (read : weight.readReal = .ok x)
    (multiplied : x.mul (.ofInt weightScale) = .infinite negative) : scaledWeight weight = .error .tooLarge := by
  simp only [scaledWeight, read, ok_bind, multiplied]
  rfl

/-- A weight that a double holds is multiplied and rounded, unless the product is too large. -/
theorem scaledWeight_finite (read : weight.readReal = .ok (.finite negative units)) : scaledWeight weight = .ok k ↔
    nearestUnits (units * 1000 * one) one < limit ∧
      signed negative (nearestEven (nearestUnits (units * 1000 * one) one) one) = k := by
  have factor : Binary64.ofInt weightScale = .finite false (1000 * one) := Binary64.ofInt_eq (by decide)
  have product : Binary64.mul (.finite negative units) (.ofInt weightScale) =
      Binary64.round negative (units * 1000 * one) one := by
    rw [factor, Binary64.mul, Bool.bne_false, Nat.mul_assoc]
  by_cases within : nearestUnits (units * 1000 * one) one < limit
  · rw [scaledWeight_of read (product.trans (Binary64.round_of_lt within)) rfl, Except.ok.injEq]
    exact (and_iff_right within).symm
  · rw [scaledWeight_infinite read (product.trans (Binary64.round_of_not_lt within))]
    exact iff_of_false (by rintro ⟨⟩) fun both => within both.1

namespace Value

theorem double_size (negative : Bool) (units : Nat) :
    |(signed negative units : Rat) / (one : Int)| * (one : Int) = units := by
  have positive : (0 : Rat) < (one : Int) := Number.one_pos
  rw [abs_div, abs_of_pos positive, Rat.div_mul_cancel (Rat.ne_of_gt positive), ← Int.cast_abs, Int.abs_eq_natAbs,
    Binary64.natAbs_signed]
  rfl

/-- A number that is not too large is read as a double that is not too large either. -/
theorem exists_double {q : Rat} (worth : weight.worth? = some q) (small : |q| ≤ 2 ^ 53) :
    ∃ negative units, weight.readReal = .ok (.finite negative units) ∧ units ≤ 2 ^ 53 * one := by
  obtain ⟨n, number, worth⟩ := Option.bind_eq_some_iff.mp worth
  rw [readReal_of_number number]
  cases n with
  | whole k =>
    cases worth
    have bound : k.natAbs ≤ 2 ^ 53 := by
      rw [← Int.cast_abs, Int.abs_eq_natAbs] at small
      exact_mod_cast small
    exact ⟨_, _, by rw [realOf, Binary64.toReal?_whole bound], Nat.mul_le_mul_right one bound⟩
  | ratio q' =>
    obtain rfl : q' = q := Option.some.inj worth
    have bound : q'.num.natAbs ≤ 2 ^ 53 * q'.den := by
      rw [← Rat.num_div_den q', abs_div, Nat.abs_cast, div_le_iff₀ (by exact_mod_cast q'.den_pos), ← Int.cast_abs,
        Int.abs_eq_natAbs] at small
      exact_mod_cast small
    have near : nearestUnits (q'.num.natAbs * one) q'.den ≤ 2 ^ 53 * one := by
      refine Binary64.nearestUnits_le q'.den_pos (Binary64.isShort_whole (Nat.le_refl _)) ?_
      exact Nat.le_trans (Nat.mul_le_mul_right one bound) (Nat.le_of_eq (by ac_rfl))
    have held := Nat.lt_of_le_of_lt near (Binary64.whole_lt_limit (by decide))
    refine ⟨q'.num < 0, _, ?_, near⟩
    rw [realOf, Number.toReal?, Binary64.ofRat, Binary64.round_of_lt held]
    rfl
  | real x =>
    cases x with
    | nan | infinite => cases worth
    | finite negative units =>
      have size := double_size negative units
      rw [← Option.some.inj worth] at small
      have positive : (0 : Rat) ≤ (one : Int) := Rat.le_of_lt Number.one_pos
      have bound := mul_le_mul_of_nonneg_right small positive
      rw [size] at bound
      exact ⟨negative, units, rfl, by exact_mod_cast bound⟩

theorem isDouble_real {x : Binary64} (finite : x.isFinite = true) : (Value.real x).IsDouble := by
  cases x with
  | finite negative units => exact ⟨negative, units, rfl, Rat.div_mul_cancel (Rat.ne_of_gt Number.one_pos)⟩
  | nan | infinite => cases finite

/-- A weight that is not too large is counted, and the count fits into a sign and 63 bits. -/
theorem exists_parts {q : Rat} (worth : weight.worth? = some q) (small : |q| ≤ 2 ^ 53) :
    scaledWeight weight = .ok weight.parts ∧ weight.parts.natAbs < 2 ^ 63 := by
  obtain ⟨negative, units, read, bound⟩ := exists_double worth small
  have short : Binary64.IsShort (1000 * 2 ^ 53 * one) := by
    have power : ∃ place, one = Nat.pow 2 place := ⟨1074, by unfold one; rfl⟩
    obtain ⟨place, power⟩ := power
    have kept := Binary64.isShort_mul_two_pow (show 125 ≤ 2 ^ 53 by decide) (56 + place)
    rwa [Nat.pow_add, ← Nat.mul_assoc, ← Nat.pow_eq (m := 2) (n := place), ← power] at kept
  have near : nearestUnits (units * 1000 * one) one ≤ 1000 * 2 ^ 53 * one :=
    Binary64.nearestUnits_le Binary64.one_pos short (Nat.mul_le_mul_right one (by omega))
  have whole := nearestEven_le Binary64.one_pos near
  have within : nearestUnits (units * 1000 * one) one < limit := by
    have far : ∃ reach, 1000 * 2 ^ 53 < reach ∧ limit = reach * one :=
      ⟨Nat.pow 2 1024, by decide +kernel, by unfold limit; rfl⟩
    obtain ⟨reach, far, ends⟩ := far
    rw [ends]
    exact Nat.lt_of_le_of_lt near (Nat.mul_lt_mul_of_pos_right far Binary64.one_pos)
  have counted := (scaledWeight_finite read).mpr ⟨within, rfl⟩
  have same := parts_of_scaled counted
  refine ⟨same ▸ counted, ?_⟩
  rw [same, Binary64.natAbs_signed]
  omega

/-- The parts of a weight that a double holds are off by half a part, and by what the product loses. -/
theorem stray_le (double : weight.IsDouble) (made : scaledWeight weight = .ok k) :
    weight.stray ≤ 1 / 2 + 1000 * |weight.worth| / 2 ^ 53 := by
  obtain ⟨negative, units, read, size⟩ := double
  obtain ⟨-, rounded⟩ := (scaledWeight_finite read).mp made
  have near := Binary64.nearestUnits_whole Binary64.one_pos (units * 1000)
  have half := nearestEven_within (nearestUnits (units * 1000 * one) one) Binary64.one_pos
  have gap : 2 ^ 54 * (1000 * signed negative units - k * one).natAbs ≤ 2 ^ 53 * one + 2000 * units := by
    rw [← rounded, ← Binary64.signed_mul]
    generalize nearestUnits (units * 1000 * one) one = product at near half ⊢
    generalize nearestEven product one * one = counted at half ⊢
    cases negative <;> simp only [signed, if_true, Bool.false_eq_true, if_false] <;> omega
  have positive : (0 : Rat) < (one : Int) := Number.one_pos
  have inside (x : Rat) : |x| * (one : Int) = |x * (one : Int)| := by rw [abs_mul, abs_of_pos positive]
  have strays : weight.stray * (one : Int) = (1000 * signed negative units - k * one).natAbs := by
    rw [stray, parts_of_scaled made, inside, sub_mul, mul_assoc, size, Nat.cast_natAbs]
    push_cast
    rfl
  have sizes : |weight.worth| * (one : Int) = units := by
    rw [inside, size, ← Int.cast_abs, Int.abs_eq_natAbs, Binary64.natAbs_signed]
    rfl
  have scaled : 2 ^ 54 * weight.stray * (one : Int) ≤ (2 ^ 53 + 2000 * |weight.worth|) * (one : Int) := by
    have cast := (Nat.cast_le (α := Rat)).mpr gap
    rw [mul_assoc, strays, add_mul, mul_assoc, sizes]
    push_cast at cast ⊢
    exact cast
  have bound := le_of_mul_le_mul_right scaled positive
  linarith

theorem parts_thousandths (small : k.natAbs ≤ 2 ^ 50) : (thousandths k).parts = k := by
  obtain ⟨within, rounded⟩ := Binary64.nearestUnits_thousand_times k.natAbs small
  have read : (Value.thousandths k).readReal =
      .ok (.finite (k < 0) (nearestUnits (k.natAbs * one) 1000)) := by
    have short := Binary64.isShort_whole (k := k.natAbs) (by omega)
    have below : nearestUnits (k.natAbs * one) 1000 ≤ k.natAbs * one :=
      Binary64.nearestUnits_le (by decide) short (Nat.le_mul_of_pos_right _ (by decide))
    have held := Nat.lt_of_le_of_lt below (Binary64.whole_lt_limit (by omega))
    have quotient : (Binary64.ofInt k).divNat 1000 = .finite (k < 0) (nearestUnits (k.natAbs * one) 1000) := by
      rw [Binary64.ofInt_eq (by omega)]
      exact Binary64.round_of_lt held
    rw [Value.thousandths, quotient]
    rfl
  exact parts_of_scaled ((scaledWeight_finite read).mpr ⟨within, by rw [rounded, Binary64.signed_natAbs]⟩)

end Value

/-- How far two choices are apart changes by what the entries change that just one of them chooses. -/
theorem Keyed.weigh_gap {β : Type} (chosen other : String → Bool) (size : β → Rat) (amount : β → Int) (factor : Rat)
    (entries : Keyed β) :
    |factor * (weigh chosen size entries - weigh other size entries) -
      ((weigh chosen amount entries - weigh other amount entries : Int) : Rat)| ≤
      weigh (fun id => chosen id != other id) (fun datum => |factor * size datum - amount datum|) entries := by
  induction entries with
  | nil => simp [weigh]
  | cons entry rest ih =>
    unfold weigh at ih ⊢
    simp only [List.map_cons, List.sum_cons]
    cases entry.1.text? with
    | none => simpa using ih
    | some id =>
      rw [abs_le] at ih ⊢
      push_cast at ih ⊢
      have low := neg_abs_le (factor * size entry.2 - amount entry.2)
      have high := le_abs_self (factor * size entry.2 - amount entry.2)
      cases here : chosen id <;> cases there : other id <;>
        simp only [Option.any_some, here, there, bne_self_eq_false, Bool.false_bne, Bool.true_bne, Bool.not_false,
          Bool.false_eq_true, if_true, if_false] <;>
        constructor <;> linarith

namespace Problem

variable {ids : List String} {p : Problem}

/-- How far the costs of two choices are apart is kept up to what the weights stray for which they differ. -/
theorem cost_gap (p : Problem) (chosen other : String → Bool) :
    |1000 * (p.cost chosen - p.cost other) - ((p.scaledCost chosen - p.scaledCost other : Int) : Rat)| ≤
      p.drift chosen other := by
  rw [← p.cost_terms chosen, ← p.cost_terms other]
  exact Keyed.weigh_gap chosen other Value.worth Value.parts 1000 p.terms

/-- A program over different variables with weights up to `2 ^ 53`, of whatever kind, and modest rows. -/
structure IsFinite (p : Problem) (ids : List String) : Prop where
  unknowns : p.unknowns = .list (ids.map .text)
  nodup : ids.Nodup
  mapping : p.objective.IsMapping
  weights : ∀ term ∈ p.objective, ∃ q, term.2.worth? = some q ∧ |q| ≤ 2 ^ 53
  rows : ∀ c ∈ p.constraints, c.IsModest ids

/-- A library makes a model of the program whose objective is the cost in parts, whatever variables are chosen. -/
theorem IsFinite.build_answers {L : ScaledLibrary} {S : L.Sense} (lawful : S.Lawful) (finite : p.IsFinite ids) :
    ∃ m unknowns, Answers (L.build p) (m, unknowns) ∧ unknowns.Declares ids ∧
      ∀ chosen, (∀ id, chosen id = true → id ∈ ids) → (∃ σ, unknowns.Carries chosen σ) ∧
        ∀ σ, unknowns.Carries chosen σ → S.cost m σ = p.scaledCost chosen := by
  obtain ⟨m, unknowns, made, declares, agrees⟩ := ScaledLibrary.build_answers lawful finite.unknowns finite.nodup
    finite.mapping finite.rows fun term member => by
      obtain ⟨q, worth, small⟩ := finite.weights term (List.mem_of_mem_filter member)
      exact Value.exists_parts worth small
  refine ⟨m, unknowns, made, declares, fun chosen inside => ⟨declares.exists_carries chosen, fun σ carries => ?_⟩⟩
  rw [(agrees chosen σ carries).2, terms_filter declares inside]
  rfl

/-- A choice that costs less in the program by more than the weights stray for which the choices differ costs less with
the weights counted in parts, too. So a choice that is optimal for these among some choices costs no more than that
above any of them. A weight strays by half a part at most, and by what a double loses of a thousand times the weight;
if it is the double nearest to some thousandths, it counts as these. A library makes a model of the program
whose objective is the cost in parts, of all variables that are chosen. -/
theorem order_of_scaled {L : ScaledLibrary} {S : L.Sense} (lawful : S.Lawful) (p : Problem) :
    (∀ chosen other, p.drift chosen other < 1000 * (p.cost other - p.cost chosen) →
      p.scaledCost chosen < p.scaledCost other) ∧
    (∀ (choices : (String → Bool) → Prop) best, choices best →
      (∀ other, choices other → p.scaledCost best ≤ p.scaledCost other) →
      ∀ other, choices other → 1000 * (p.cost best - p.cost other) ≤ p.drift best other) ∧
    (∀ weight : Value, weight.IsDouble → (∃ parts, scaledWeight weight = .ok parts) →
      weight.stray ≤ 1 / 2 + 1000 * |weight.worth| / 2 ^ 53) ∧
    (∀ k : Int, k.natAbs ≤ 2 ^ 50 → (Value.thousandths k).parts = k) ∧
    ∀ ids, p.IsFinite ids → ∃ m unknowns, Answers (L.build p) (m, unknowns) ∧ unknowns.Declares ids ∧
      ∀ chosen, (∀ id, chosen id = true → id ∈ ids) → (∃ σ, unknowns.Carries chosen σ) ∧
        ∀ σ, unknowns.Carries chosen σ → S.cost m σ = p.scaledCost chosen := by
  refine ⟨fun chosen other far => ?_, fun choices best own least other listed => ?_, ?_,
    fun k => Value.parts_thousandths, fun ids finite => finite.build_answers lawful⟩
  · have gap := abs_le.mp (p.cost_gap chosen other)
    push_cast at gap
    have less : (p.scaledCost chosen : Rat) < p.scaledCost other := by linarith
    exact_mod_cast less
  · have gap := abs_le.mp (p.cost_gap best other)
    have ahead : (p.scaledCost best : Rat) ≤ p.scaledCost other := by exact_mod_cast least other listed
    push_cast at gap
    linarith
  · rintro weight double ⟨parts, made⟩
    exact Value.stray_le double made

/-- A program with weights between the thousandths. -/
def uneven : Problem where
  unknowns := .list [.text "a", .text "b", .text "c"]
  objective := [(.text "a", .real ((Binary64.ofInt 6).divNat 10000)), (.text "b", .real ((Binary64.ofInt 4).divNat 10000)),
    (.text "c", .real ((Binary64.ofInt 4).divNat 10000))]
  constraints := []

theorem uneven_isFinite : uneven.IsFinite ["a", "b", "c"] where
  unknowns := rfl
  nodup := by decide
  mapping := ⟨by decide, by decide⟩
  weights := by
    have small : ∀ term ∈ uneven.objective, term.2.worth?.any (fun q => -1 ≤ q && q ≤ 1) = true := by decide +kernel
    intro term member
    obtain ⟨q, worth, bound⟩ := (Option.any_eq_true ..).mp (small term member)
    rw [Bool.and_eq_true, decide_eq_true_eq, decide_eq_true_eq] at bound
    exact ⟨q, worth, (abs_le.mpr bound).trans (by norm_num)⟩
  rows := by simp [uneven]

/-- Choosing none of the variables costs less by more than the weight strays that the first of them has. -/
theorem order_of_uneven : ∃ m unknowns σ τ,
    Answers ((ScaledModel.library none).build uneven) (m, unknowns) ∧
    unknowns.Carries (fun _ => false) σ ∧ unknowns.Carries (· == "a") τ ∧
    uneven.drift (fun _ => false) (· == "a") < 1000 * (uneven.cost (· == "a") - uneven.cost fun _ => false) ∧
    (ScaledModel.sense none).cost m σ < (ScaledModel.sense none).cost m τ := by
  obtain ⟨order, -, -, -, made⟩ := order_of_scaled (ScaledModel.lawful none) uneven
  obtain ⟨m, unknowns, answers, -, costs⟩ := made _ uneven_isFinite
  obtain ⟨⟨σ, none⟩, cost⟩ := costs (fun _ => false) (by simp)
  obtain ⟨⟨τ, first⟩, cost'⟩ := costs (· == "a") (by simp)
  have far : uneven.drift (fun _ => false) (· == "a") <
      1000 * (uneven.cost (· == "a") - uneven.cost fun _ => false) := by decide +kernel
  refine ⟨m, unknowns, σ, τ, answers, none, first, far, ?_⟩
  rw [cost σ none, cost' τ first]
  exact order _ _ far

/-- A weight of six tenths of a part costs less than two of four tenths, though each is counted as the whole number
nearest to it, and these vanish. So what is optimal for the model among the two choices is not so for the program. -/
theorem order_lost : ∃ m unknowns chosen other σ τ,
    Answers ((ScaledModel.library none).build uneven) (m, unknowns) ∧
    unknowns.Carries chosen σ ∧ unknowns.Carries other τ ∧
    (∀ term ∈ uneven.objective, term.2.IsDouble ∧ 2 * term.2.stray < 1) ∧
    uneven.cost chosen < uneven.cost other ∧
    (ScaledModel.sense none).cost m τ < (ScaledModel.sense none).cost m σ := by
  obtain ⟨m, unknowns, answers, -, costs⟩ := uneven_isFinite.build_answers (ScaledModel.lawful none)
  obtain ⟨⟨σ, first⟩, cost⟩ := costs (· == "a") (by simp)
  obtain ⟨⟨τ, others⟩, cost'⟩ := costs (fun id => id == "b" || id == "c") (by
    intro id own
    rcases Bool.or_eq_true_iff.mp own with here | here <;> simp [eq_of_beq here])
  have near : ∀ term ∈ uneven.objective, 2 * term.2.stray < 1 := by decide +kernel
  refine ⟨m, unknowns, _, _, σ, τ, answers, first, others, fun term member => ⟨?_, near term member⟩,
    by decide +kernel, ?_⟩
  · simp only [uneven, List.mem_cons, List.not_mem_nil, or_false] at member
    rcases member with rfl | rfl | rfl
    all_goals exact Value.isDouble_real (by decide +kernel)
  · rw [cost σ first, cost' τ others]
    decide +kernel

end Problem

end Matchmaking
