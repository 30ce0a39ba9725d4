import Mathlib.Algebra.Order.Ring.Rat
import Mathlib.Data.List.Nodup
import Matchmaking.Constraint.Name
import Matchmaking.Problem.RealLibrary
import Matchmaking.Proofs.Problem.Amounts
import Matchmaking.Proofs.Stateful

/-! What is relied on of the libraries that take models: what their expressions, relations and models mean when
some of the variables are chosen, and that the calls that programs are translated into mean what they say. Each
law is asked for only as far as programs need it: sums are of variables, or of products with different variables, and
targets, coefficients and names are such as every library takes. -/
namespace Matchmaking

open Stateful

namespace RealLibrary

/-- A meaning for the expressions, relations and models of a library. -/
structure Sense (L : RealLibrary) where
  worth : L.Expression → (L.Variable → Bool) → Rat
  Holds : L.Relation → (L.Variable → Bool) → Prop
  Satisfied : L.Model → (L.Variable → Bool) → Prop
  cost : L.Model → (L.Variable → Bool) → Rat
  /-- Whether a model has a row of a name. -/
  HasRow : L.Model → String → Prop

namespace Sense

variable {L : RealLibrary} (S : L.Sense)

structure Lawful : Prop where
  blank_satisfied : ∀ σ, S.Satisfied L.blank σ
  blank_hasRow : ∀ s, ¬S.HasRow L.blank s
  binary_ok : ∀ s, ∃ x, L.binary (.text s) = .ok x
  /-- Variables are told apart by their identifiers. -/
  binary_inj : ∀ s t x, L.binary (.text s) = .ok x → L.binary (.text t) = .ok x → s = t
  worth_single : ∀ x σ, S.worth (L.single x) σ = if σ x then 1 else 0
  times_ok : ∀ weight (k : Int) x, weight.Counts k → k.natAbs ≤ 2 ^ 53 →
    ∃ e, L.times weight x = .ok e ∧ ∀ σ, S.worth e σ = if σ x then (k : Rat) else 0
  sum_singles : ∀ xs : List L.Variable, ∃ e, L.sum (xs.map L.single) = .ok e ∧
    ∀ σ, S.worth e σ = ((xs.map L.single).map (S.worth · σ)).sum
  sum_products : ∀ (terms : List (Value × L.Variable)) es, List.Forall₂ (fun term e => L.times term.1 term.2 = .ok e) terms es →
    (terms.map (·.2)).Nodup → ∃ e, L.sum es = .ok e ∧ ∀ σ, S.worth e σ = (es.map (S.worth · σ)).sum
  relate_ok : ∀ op (xs : List L.Variable) e target t q, L.sum (xs.map L.single) = .ok e → target.number? = some t → t.IsModest →
    t.worth? = some q → ∃ r, Answers (L.relate op e target) r ∧
      ∀ σ, S.Holds r σ ↔ op.compares (S.worth e σ) q = true
  minimize_ok : ∀ e m, ∃ next, L.minimize e m = .ok next ∧ (∀ σ, S.cost next σ = S.worth e σ) ∧
    (∀ σ, S.Satisfied next σ ↔ S.Satisfied m σ) ∧ ∀ s, S.HasRow next s ↔ S.HasRow m s
  minimizeNothing_ok : ∀ m, (∀ σ, S.cost (L.minimizeNothing m) σ = 0) ∧
    (∀ σ, S.Satisfied (L.minimizeNothing m) σ ↔ S.Satisfied m σ) ∧
    ∀ s, S.HasRow (L.minimizeNothing m) s ↔ S.HasRow m s
  /-- A row is added if no other has its name. -/
  addRow_ok : ∀ r s m, Name.isUsable s = true → ¬S.HasRow m s → ∃ next, L.addRow r (.text s) m = .ok next ∧
    (∀ σ, S.cost next σ = S.cost m σ) ∧ (∀ σ, S.Satisfied next σ ↔ S.Satisfied m σ ∧ S.Holds r σ) ∧
    ∀ t, S.HasRow next t ↔ t = s ∨ S.HasRow m t

end Sense

end RealLibrary

namespace ScaledLibrary

/-- A meaning for the expressions, relations and models of a library. -/
structure Sense (L : ScaledLibrary) where
  worth : L.Expression → (L.Variable → Bool) → Int
  Holds : L.Relation → (L.Variable → Bool) → Prop
  Satisfied : L.Model → (L.Variable → Bool) → Prop
  cost : L.Model → (L.Variable → Bool) → Int
  /-- Whether a variable is one of a model. -/
  HasVariable : L.Model → L.Variable → Prop

namespace Sense

variable {L : ScaledLibrary} (S : L.Sense)

/-- A model with one more row, which may be no condition at all. -/
structure Extends (m next : L.Model) (row : (L.Variable → Bool) → Prop) : Prop where
  satisfied : ∀ σ, S.Satisfied next σ ↔ S.Satisfied m σ ∧ row σ
  cost : ∀ σ, S.cost next σ = S.cost m σ
  hasVariable : ∀ x, S.HasVariable next x ↔ S.HasVariable m x

structure Lawful : Prop where
  blank_satisfied : ∀ σ, S.Satisfied L.blank σ
  blank_cost : ∀ σ, S.cost L.blank σ = 0
  /-- A variable is a new one, whatever its name is. -/
  newBool_ok : ∀ s m, ∃ x next, L.newBool (.text s) m = .ok (x, next) ∧ ¬S.HasVariable m x ∧
    (∀ y, S.HasVariable next y ↔ y = x ∨ S.HasVariable m y) ∧ (∀ σ, S.Satisfied next σ ↔ S.Satisfied m σ) ∧
    ∀ σ, S.cost next σ = S.cost m σ
  worth_single : ∀ x σ, S.worth (L.single x) σ = if σ x then 1 else 0
  times_ok : ∀ (c : Int) x, c.natAbs < 2 ^ 63 →
    ∃ e, L.times c x = .ok e ∧ ∀ σ, S.worth e σ = if σ x then c else 0
  sum_singles : ∀ (xs : List L.Variable) σ, xs ≠ [] → S.worth (L.sum (xs.map L.single)) σ = ((xs.map L.single).map (S.worth · σ)).sum
  sum_products : ∀ (terms : List (Int × L.Variable)) es σ, terms ≠ [] → (∀ term ∈ terms, term.1.natAbs < 2 ^ 63) →
    List.Forall₂ (fun term e => L.times term.1 term.2 = .ok e) terms es → (terms.map (·.2)).Nodup →
    S.worth (L.sum es) σ = (es.map (S.worth · σ)).sum
  relate_ok : ∀ op (xs : List L.Variable) (target : Int), xs ≠ [] → target.natAbs ≤ 2 ^ 53 →
    ∃ r, L.relate op (L.sum (xs.map L.single)) target = .ok r ∧
      ∀ σ, S.Holds r σ ↔ op.holds (S.worth (L.sum (xs.map L.single)) σ) target = true
  addRow_ok : ∀ op (xs : List L.Variable) target r m, L.relate op (L.sum (xs.map L.single)) target = .ok r →
    (∀ x ∈ xs, S.HasVariable m x) → ∃ next, L.addRow r m = .ok next ∧ S.Extends m next (S.Holds r)
  addTruth_ok : ∀ holds m, S.Extends m (L.addTruth holds m) fun _ => holds = true
  /-- None of no variables is chosen. -/
  addAny_nil : ∀ m, S.Extends m (L.addAny [] m) fun _ => False
  nameLast_ok : ∀ s m, Name.isUsable s = true →
    ∃ next, L.nameLast (.text s) m = .ok next ∧ S.Extends m next fun _ => True
  minimize_ok : ∀ (terms : List (Int × L.Variable)) es m, terms ≠ [] → (∀ term ∈ terms, term.1.natAbs < 2 ^ 63) →
    List.Forall₂ (fun term e => L.times term.1 term.2 = .ok e) terms es → (terms.map (·.2)).Nodup →
    (∀ term ∈ terms, S.HasVariable m term.2) → ∃ next, L.minimize (L.sum es) m = .ok next ∧
      (∀ σ, S.cost next σ = S.worth (L.sum es) σ) ∧ ∀ σ, S.Satisfied next σ ↔ S.Satisfied m σ

end Sense

end ScaledLibrary

end Matchmaking
