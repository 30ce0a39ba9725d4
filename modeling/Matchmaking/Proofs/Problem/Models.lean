import Mathlib.Tactic.Choose
import Matchmaking.Proofs.Problem.Declared
import Matchmaking.Proofs.Problem.Laws

/-! Models of a program in libraries that keep their laws. A model is made, and over what is made of the same choice
of variables its rows hold just if the rows of the program do, whether a row is kept, rounded or replaced by
a truth value. Its objective is the cost of the choice, exactly or counted in parts. -/
namespace Matchmaking

open Stateful

variable {ids : List String} {c : Constraint} {p : Problem} {chosen : String → Bool}

/-- What a weight is exactly; nothing if it is no finite number. -/
def Value.worth (weight : Value) : Rat := weight.worth?.getD 0

def Value.parts (weight : Value) : Int := (scaledWeight weight).toOption.getD 0

namespace Problem

def isSatisfied (chosen : String → Bool) (p : Problem) : Bool := p.constraints.all (·.isSatisfied chosen)

def cost (chosen : String → Bool) (p : Problem) : Rat := p.objective.weigh chosen Value.worth

def scaledCost (chosen : String → Bool) (p : Problem) : Int := p.terms.weigh chosen Value.parts

end Problem

/-- A row over declared variables with a modest target and a usable name. -/
structure Constraint.IsModest (c : Constraint) (ids : List String) : Prop where
  unknowns : ∃ listed : List String, c.unknowns = listed.map .text ∧ ∀ id ∈ listed, id ∈ ids
  target : ∃ t, c.target.number? = some t ∧ t.IsModest
  name : ∃ s, c.name = .text s ∧ Name.isUsable s = true

namespace Value

variable {weight : Value} {k : Int}

theorem Counts.worth? (counts : weight.Counts k) : weight.worth? = some (k : Rat) := by
  obtain ⟨n, number, equal⟩ := counts
  rw [Value.worth?, number]
  exact Number.worth?_of_eq equal

theorem Counts.worth (counts : weight.Counts k) : weight.worth = k := by rw [Value.worth, counts.worth?, Option.getD_some]

theorem parts_of_scaled (scaled : scaledWeight weight = .ok k) : weight.parts = k := by
  rw [parts, scaled]
  rfl

theorem worth_of_equal (zero : weight.equal (.int 0) = true) : weight.worth = 0 := by
  cases number : weight.number? with
  | none => rw [worth, worth?, number]; rfl
  | some n =>
    have same : weight.same (.int 0) = n.eq (.whole 0) := by
      cases weight with
      | real x => cases number; cases x <;> rfl
      | _ => cases number <;> rfl
    have none : n.eq (.whole 0) = true := same ▸ (Bool.and_eq_true_iff.mp zero).2
    rw [Counts.worth ⟨n, number, none⟩]
    rfl

end Value

theorem Problem.cost_terms (p : Problem) (chosen : String → Bool) :
    p.terms.weigh chosen Value.worth = p.cost chosen := by
  rw [terms, Keyed.weigh_filter, cost]
  exact fun term _ zero _ => Value.worth_of_equal (by simpa using zero)

/-- Variables that count as one if they are chosen add up to the number of those. -/
theorem sum_ite_eq_countP {β M : Type} [AddCommMonoidWithOne M] (chosen : β → Bool) (xs : List β) :
    (xs.map fun x => if chosen x then (1 : M) else 0).sum = xs.countP chosen := by
  induction xs with
  | nil => simp
  | cons x rest ih =>
    rw [List.map_cons, List.sum_cons, ih, List.countP_cons]
    split
    · rw [Nat.cast_add, Nat.cast_one, add_comm]
    · rw [zero_add, Nat.add_zero]

/-- A program without undeclared identifiers in its objective keeps all its terms. -/
theorem Problem.terms_filter {β : Type} {unknowns : Keyed β} (declares : unknowns.Declares ids)
    (inside : ∀ id, chosen id = true → id ∈ ids) {M : Type} [AddMonoid M] (amount : Value → M) (terms : Keyed Value) :
    Keyed.weigh chosen amount (terms.filter fun term => unknowns.has term.1) = terms.weigh chosen amount := by
  refine Keyed.weigh_filter fun term _ undeclared own => ?_
  obtain ⟨id, text, chose⟩ := (Option.any_eq_true ..).mp own
  obtain ⟨x, found, entry⟩ := declares.exists_entry (inside id chose)
  rw [Keyed.has, Keyed.get?_of_text? unknowns text, found] at undeclared
  cases undeclared

namespace RealLibrary

variable {L : RealLibrary} {S : L.Sense} {unknowns : Keyed L.Variable} {σ : L.Variable → Bool} {m : L.Model}

theorem Sense.Lawful.sum_members (lawful : S.Lawful) (xs : List L.Variable) :
    ∃ e, L.sum (xs.map L.single) = .ok e ∧ ∀ σ, S.worth e σ = xs.countP σ := by
  obtain ⟨e, summed, worth⟩ := lawful.sum_singles xs
  refine ⟨e, summed, fun σ => ?_⟩
  rw [worth, List.map_map]
  refine .trans (congrArg List.sum ?_) (sum_ite_eq_countP (M := Rat) σ xs)
  exact List.map_congr_left fun x _ => lawful.worth_single x σ

theorem addConstraint_answers (lawful : S.Lawful) (declares : unknowns.Declares ids) (modest : c.IsModest ids)
    {s : String} (name : c.name = .text s) (fresh : ¬S.HasRow m s) : ∃ next,
      Answers (L.addConstraint (Lookup.of unknowns) m c) next ∧ (∀ σ, S.cost next σ = S.cost m σ) ∧
      (∀ t, S.HasRow next t ↔ t = s ∨ S.HasRow m t) ∧ ∀ chosen σ, unknowns.Carries chosen σ →
        (S.Satisfied next σ ↔ S.Satisfied m σ ∧ c.isSatisfied chosen = true) := by
  obtain ⟨listed, texts, inside⟩ := modest.unknowns
  obtain ⟨t, number, small⟩ := modest.target
  obtain ⟨q, worth⟩ := small.exists_worth
  obtain ⟨s', name', usable⟩ := modest.name
  obtain rfl : s = s' := Value.text.inj (name.symm.trans name')
  obtain ⟨xs, members, found⟩ := Constraint.exists_members declares texts inside
  obtain ⟨e, summed, total⟩ := lawful.sum_members xs
  obtain ⟨r, related, holds⟩ := lawful.relate_ok c.operator xs e c.target t q summed number small worth
  obtain ⟨next, added, cost, satisfied, named⟩ := lawful.addRow_ok r s m usable fresh
  refine ⟨next, ?_, cost, named, fun chosen σ carries => ?_⟩
  · rw [addConstraint, members]
    refine (Answers.lift rfl).bind ((Answers.lift summed).bind (related.bind ?_))
    rw [name]
    exact .lift added
  · have sum : c.isSatisfied chosen = c.operator.compares (S.worth e σ) q := by
      rw [Constraint.isSatisfied, number, Option.any_some, Operator.relates_of_worth? worth, total,
        Constraint.total_members texts carries found]
      rfl
    rw [satisfied, holds, sum]

theorem addConstraints_answers (lawful : S.Lawful) (declares : unknowns.Declares ids) {rows : List Constraint}
    (modest : ∀ c ∈ rows, c.IsModest ids) (names : (rows.filterMap (·.name.text?)).Nodup)
    (fresh : ∀ s ∈ rows.filterMap (·.name.text?), ¬S.HasRow m s) : ∃ next,
      Answers (rows.foldlM (L.addConstraint (Lookup.of unknowns)) m) next ∧ (∀ σ, S.cost next σ = S.cost m σ) ∧
      ∀ chosen σ, unknowns.Carries chosen σ →
        (S.Satisfied next σ ↔ S.Satisfied m σ ∧ rows.all (·.isSatisfied chosen) = true) := by
  induction rows generalizing m with
  | nil => exact ⟨m, .pure m, fun _ => rfl, by simp⟩
  | cons c rest ih =>
    obtain ⟨first, others⟩ := List.forall_mem_cons.mp modest
    obtain ⟨s, name, usable⟩ := first.name
    have labels : (c :: rest).filterMap (·.name.text?) = s :: rest.filterMap (·.name.text?) :=
      List.filterMap_cons_some (by rw [name]; rfl)
    rw [labels] at names fresh
    obtain ⟨new, unlike⟩ := List.forall_mem_cons.mp fresh
    obtain ⟨apart, names⟩ := List.nodup_cons.mp names
    obtain ⟨mid, added, cost, named, satisfied⟩ := addConstraint_answers lawful declares first name new
    obtain ⟨next, answers, cost', satisfied'⟩ := ih others names fun t member held => by
      rcases (named t).mp held with rfl | early
      · exact apart member
      · exact unlike t member early
    refine ⟨next, ?_, fun σ => (cost' σ).trans (cost σ), fun chosen σ carries => ?_⟩
    · rw [List.foldlM_cons]
      exact added.bind answers
    · rw [satisfied' chosen σ carries, satisfied chosen σ carries, List.all_cons, Bool.and_eq_true, and_assoc]

/-- A whole weight times a variable. -/
theorem Sense.Lawful.exists_products (lawful : S.Lawful) {terms : List (Value × L.Variable)}
    (counts : ∀ term ∈ terms, ∃ k : Int, k.natAbs ≤ 9 * 10 ^ 12 ∧ term.1.Counts k) :
    ∃ es, List.Forall₂ (fun term e => L.times term.1 term.2 = .ok e) terms es ∧
      ∀ σ, es.map (S.worth · σ) = terms.map fun term => if σ term.2 then term.1.worth else 0 := by
  have each : ∀ term ∈ terms, ∃ e, L.times term.1 term.2 = .ok e ∧
      ∀ σ, S.worth e σ = if σ term.2 then term.1.worth else 0 := by
    intro term member
    obtain ⟨k, small, own⟩ := counts term member
    rw [own.worth]
    exact lawful.times_ok term.1 k term.2 own (by omega)
  obtain ⟨es, made⟩ := exists_forall₂ each
  refine ⟨es, made.imp fun _ _ both => both.1, fun σ => ?_⟩
  rw [← List.forall₂_eq_eq_eq, List.forall₂_map_left_iff, List.forall₂_map_right_iff]
  exact made.flip.imp fun _ _ both => both.2 σ

theorem Sense.Lawful.minimizeSum_ok (lawful : S.Lawful) {terms : List (Value × L.Variable)} {es : List L.Expression}
    (products : List.Forall₂ (fun term e => L.times term.1 term.2 = .ok e) terms es)
    (different : (terms.map (·.2)).Nodup) : ∃ m, L.minimizeSum es L.blank = .ok m ∧
      (∀ σ, S.cost m σ = (es.map (S.worth · σ)).sum) ∧ (∀ σ, S.Satisfied m σ) ∧ ∀ s, ¬S.HasRow m s := by
  cases es with
  | nil =>
    obtain ⟨cost, satisfied, named⟩ := lawful.minimizeNothing_ok L.blank
    exact ⟨_, rfl, cost, fun σ => (satisfied σ).mpr (lawful.blank_satisfied σ), fun s held =>
      lawful.blank_hasRow s ((named s).mp held)⟩
  | cons e rest =>
    obtain ⟨sum, summed, total⟩ := lawful.sum_products _ _ products different
    obtain ⟨m, set, cost, satisfied, named⟩ := lawful.minimize_ok sum L.blank
    refine ⟨m, ?_, fun σ => (cost σ).trans (total σ), fun σ => (satisfied σ).mpr (lawful.blank_satisfied σ),
      fun s held => lawful.blank_hasRow s ((named s).mp held)⟩
    rw [minimizeSum, summed]
    exact set

end RealLibrary

/-- A program over different variables with whole weights that are not too large, modest rows, and
usable names for them of which no two are the same. -/
structure Problem.IsModest (p : Problem) (ids : List String) : Prop where
  unknowns : p.unknowns = .list (ids.map .text)
  nodup : ids.Nodup
  mapping : p.objective.IsMapping
  objective : ∀ term ∈ p.objective, (∃ id ∈ ids, term.1 = .text id) ∧
    ∃ k : Int, k.natAbs ≤ 9 * 10 ^ 12 ∧ term.2.Counts k
  rows : ∀ c ∈ p.constraints, c.IsModest ids
  names : p.rowNames.Nodup

theorem Problem.terms_apart (mapping : p.objective.IsMapping) (keep : Value × Value → Bool) :
    (p.terms.filter keep).Pairwise fun a b => a.1.same b.1 = false :=
  (List.pairwise_map.mp mapping.apart).sublist (List.filter_sublist.trans List.filter_sublist)

theorem Problem.IsModest.terms_filter (modest : p.IsModest ids) {β : Type} {unknowns : Keyed β}
    (declares : unknowns.Declares ids) : (p.terms.filter fun term => unknowns.has term.1) = p.terms := by
  refine List.filter_eq_self.mpr fun term member => ?_
  obtain ⟨⟨id, own, key⟩, -⟩ := modest.objective term (List.mem_of_mem_filter member)
  obtain ⟨x, found, -⟩ := declares.exists_entry own
  rw [Keyed.has, key, found]
  rfl

/-- The model is made, and what its rows and its objective say is what the program says. -/
theorem RealLibrary.build_answers {L : RealLibrary} {S : L.Sense} (lawful : S.Lawful) (modest : p.IsModest ids) :
    ∃ m unknowns, Answers (L.build p) (m, unknowns) ∧ unknowns.Declares ids ∧
      ∀ chosen σ, unknowns.Carries chosen σ →
        (S.Satisfied m σ ↔ p.isSatisfied chosen = true) ∧ S.cost m σ = p.cost chosen := by
  choose f made using lawful.binary_ok
  have apart : Function.Injective f := fun s t same => lawful.binary_inj s t (f s) (made s) (same ▸ made t)
  obtain ⟨unknowns, declared, declares⟩ := p.declare_answers modest.unknowns modest.nodup apart made
  have related := Problem.termsOver_of_declares declares p
  have different := Problem.termsOver_apart declares (Problem.terms_apart modest.mapping _) related
  have counts : ∀ next ∈ p.termsOver (Lookup.of unknowns), ∃ k : Int, k.natAbs ≤ 9 * 10 ^ 12 ∧ next.1.Counts k := by
    intro next member
    obtain ⟨term, inside, weight, -⟩ := exists_of_mem_right related member
    rw [weight]
    exact (modest.objective term (List.mem_of_mem_filter (List.mem_of_mem_filter inside))).2
  obtain ⟨es, products, worth⟩ := lawful.exists_products counts
  have costs (chosen : String → Bool) (σ : L.Variable → Bool) (carries : unknowns.Carries chosen σ) :
      (es.map (S.worth · σ)).sum = p.cost chosen := by
    rw [worth, Problem.sum_termsOver carries Value.worth related, modest.terms_filter declares, Problem.cost_terms]
  obtain ⟨m, set, cost, satisfied, unnamed⟩ := lawful.minimizeSum_ok products different
  obtain ⟨next, added, cost', satisfied'⟩ := addConstraints_answers lawful declares modest.rows modest.names
    fun s _ => unnamed s
  refine ⟨next, unknowns, ?_, declares, fun chosen σ carries => ⟨?_, ?_⟩⟩
  · exact declared.bind ((Answers.mapM (products.imp fun _ _ made => .lift made)).bind ((Answers.lift set).bind (added.bind (.pure _))))
  · rw [satisfied' chosen σ carries]
    exact and_iff_right (satisfied σ)
  · rw [cost', cost, costs chosen σ carries]

namespace ScaledLibrary

variable {L : ScaledLibrary} {S : L.Sense} {unknowns : Keyed L.Variable} {σ : L.Variable → Bool} {m next : L.Model}

namespace Sense

theorem Extends.refl (S : L.Sense) (m : L.Model) : S.Extends m m fun _ => True := ⟨by simp, fun _ => rfl, fun _ => Iff.rfl⟩

theorem Extends.trans {row row' : (L.Variable → Bool) → Prop} {last : L.Model} (first : S.Extends m next row)
    (second : S.Extends next last row') : S.Extends m last fun σ => row σ ∧ row' σ where
  satisfied σ := by rw [second.satisfied, first.satisfied, and_assoc]
  cost σ := (second.cost σ).trans (first.cost σ)
  hasVariable x := (second.hasVariable x).trans (first.hasVariable x)

theorem Lawful.worth_members (lawful : S.Lawful) {xs : List L.Variable} (some : xs ≠ []) (σ : L.Variable → Bool) :
    S.worth (L.sum (xs.map L.single)) σ = xs.countP σ := by
  rw [lawful.sum_singles xs σ some, List.map_map]
  refine .trans (congrArg List.sum ?_) (sum_ite_eq_countP (M := Int) σ xs)
  exact List.map_congr_left fun x _ => lawful.worth_single x σ

end Sense

/-- The row that takes the place of a relation holds just if the relation does. -/
theorem relateTo_ok (lawful : S.Lawful) (op : Operator) {xs : List L.Variable} (known : ∀ x ∈ xs, S.HasVariable m x)
    {target : Value} {t : Number} (number : target.number? = some t) (modest : t.IsModest) : ∃ next row,
      L.relateTo op xs target m = .ok next ∧ S.Extends m next row ∧
      ∀ σ, row σ ↔ op.relates (.whole (xs.countP σ)) t = true := by
  obtain ⟨whole, x, rounded, read, small, same⟩ := wholeTarget_ends op number modest
  simp only [relateTo, rounded, read, ok_bind, same]
  split
  · rename_i fraction
    refine ⟨_, _, rfl, lawful.addAny_nil m, fun σ => ?_⟩
    have lost : (op != .eq || x.isInteger) = false := by cases op <;> simp_all
    simp [lost]
  · rename_i fit
    have kept : (op != .eq || x.isInteger) = true := by cases op <;> simp_all
    simp only [kept, Bool.true_and]
    split
    · rename_i none
      obtain rfl := List.isEmpty_iff.mp none
      exact ⟨_, _, rfl, lawful.addTruth_ok _ m, fun σ => Iff.rfl⟩
    · rename_i some
      have some : xs ≠ [] := fun none => some (List.isEmpty_iff.mpr none)
      obtain ⟨r, related, holds⟩ := lawful.relate_ok op xs whole some small
      obtain ⟨next, added, grown⟩ := lawful.addRow_ok op xs whole r m related known
      exact ⟨next, _, by rw [related, ok_bind, added], grown, fun σ => by rw [holds, lawful.worth_members some]⟩

theorem named_ok (lawful : S.Lawful) {s : String} (usable : Name.isUsable s = true) (m : L.Model) :
    ∃ next, L.named (.text s) m = .ok next ∧ S.Extends m next fun _ => True := by
  unfold named
  split
  · exact lawful.nameLast_ok s m usable
  · exact ⟨m, rfl, .refl S m⟩

theorem addConstraint_ok (lawful : S.Lawful) (declares : unknowns.Declares ids) (modest : c.IsModest ids)
    (known : ∀ entry ∈ unknowns, S.HasVariable m entry.2) : ∃ next row,
      L.addConstraint (Lookup.of unknowns) m c = .ok next ∧ S.Extends m next row ∧
      ∀ chosen σ, unknowns.Carries chosen σ → (row σ ↔ c.isSatisfied chosen = true) := by
  obtain ⟨listed, texts, inside⟩ := modest.unknowns
  obtain ⟨t, number, small⟩ := modest.target
  obtain ⟨s, name, usable⟩ := modest.name
  obtain ⟨xs, members, found⟩ := Constraint.exists_members declares texts inside
  have own : ∀ x ∈ xs, S.HasVariable m x := by
    intro x member
    obtain ⟨id, -, entry⟩ := exists_of_mem_right found member
    exact known _ entry
  obtain ⟨mid, row, related, first, holds⟩ := relateTo_ok lawful c.operator own number small
  obtain ⟨next, labelled, second⟩ := named_ok lawful usable mid
  refine ⟨next, _, ?_, first.trans second, fun chosen σ carries => ?_⟩
  · rw [addConstraint, members, ok_bind, related, ok_bind, name, labelled]
  · rw [and_true, holds, Constraint.isSatisfied, number, Option.any_some,
      Constraint.total_members texts carries found]

theorem addConstraints_ok (lawful : S.Lawful) (declares : unknowns.Declares ids) {rows : List Constraint}
    (modest : ∀ c ∈ rows, c.IsModest ids) (known : ∀ entry ∈ unknowns, S.HasVariable m entry.2) : ∃ next row,
      rows.foldlM (L.addConstraint (Lookup.of unknowns)) m = .ok next ∧ S.Extends m next row ∧
      ∀ chosen σ, unknowns.Carries chosen σ → (row σ ↔ rows.all (·.isSatisfied chosen) = true) := by
  induction rows generalizing m with
  | nil => exact ⟨m, _, rfl, .refl S m, by simp⟩
  | cons c rest ih =>
    obtain ⟨first, others⟩ := List.forall_mem_cons.mp modest
    obtain ⟨mid, row, added, one, holds⟩ := addConstraint_ok lawful declares first known
    obtain ⟨next, row', more, rest, holds'⟩ := ih others fun entry member =>
      (one.hasVariable entry.2).mpr (known entry member)
    refine ⟨next, _, ?_, one.trans rest, fun chosen σ carries => ?_⟩
    · rw [List.foldlM_cons, added, ok_bind, more]
    · rw [holds chosen σ carries, holds' chosen σ carries, List.all_cons, Bool.and_eq_true]

/-- Variables that have been declared one after the other in a model with nothing else in it. -/
structure Sense.Declaring (S : L.Sense) (made : Keyed L.Variable) (m : L.Model) : Prop where
  apart : (made.map (·.2)).Nodup
  known : ∀ entry ∈ made, S.HasVariable m entry.2
  satisfied : ∀ σ, S.Satisfied m σ
  cost : ∀ σ, S.cost m σ = 0

def declareStep (L : ScaledLibrary) (state : Keyed L.Variable × L.Model) (id : Value) :
    Except Failure (Keyed L.Variable × L.Model) := do
  let (x, next) ← L.newBool id state.2
  return ((← id.asKey, x) :: state.1, next)

theorem declareStep_ok (lawful : S.Lawful) {made : Keyed L.Variable} (declaring : S.Declaring made m) (id : String) :
    ∃ x next, L.declareStep (made, m) (.text id) = .ok ((.text id, x) :: made, next) ∧
      S.Declaring ((.text id, x) :: made) next := by
  obtain ⟨x, next, created, fresh, present, satisfied, cost⟩ := lawful.newBool_ok id m
  refine ⟨x, next, by rw [declareStep, created]; rfl, ?_, ?_, ?_, ?_⟩
  · refine List.nodup_cons.mpr ⟨fun member => fresh ?_, declaring.apart⟩
    obtain ⟨entry, inside, same⟩ := List.mem_map.mp member
    have known := declaring.known entry inside
    rwa [same] at known
  · exact List.forall_mem_cons.mpr ⟨(present x).mpr (.inl rfl), fun entry member =>
      (present entry.2).mpr (.inr (declaring.known entry member))⟩
  · exact fun σ => (satisfied σ).mpr (declaring.satisfied σ)
  · exact fun σ => (cost σ).trans (declaring.cost σ)

theorem declareSteps_ok (lawful : S.Lawful) {made : Keyed L.Variable} (declaring : S.Declaring made m)
    (ids : List String) : ∃ all next, (ids.map Value.text).foldlM L.declareStep (made, m) = .ok (all, next) ∧
      Keyed.keys all.reverse = Keyed.keys made.reverse ++ ids.map .text ∧ S.Declaring all next := by
  induction ids generalizing made m with
  | nil => exact ⟨made, m, rfl, by simp, declaring⟩
  | cons id rest ih =>
    obtain ⟨x, mid, first, grown⟩ := declareStep_ok lawful declaring id
    obtain ⟨all, next, more, keys, declared⟩ := ih grown
    refine ⟨all, next, ?_, ?_, declared⟩
    · rw [List.map_cons, List.foldlM_cons, first, ok_bind, more]
    · rw [keys]
      simp [Keyed.keys]

theorem declareIn_answers (lawful : S.Lawful) (texts : p.unknowns = .list (ids.map .text)) (nodup : ids.Nodup) :
    ∃ unknowns m, Answers (p.declareIn L.newBool L.blank) (unknowns, m) ∧ unknowns.Declares ids ∧
      S.Declaring unknowns m := by
  have start : S.Declaring [] L.blank := ⟨.nil, by simp, lawful.blank_satisfied, lawful.blank_cost⟩
  obtain ⟨all, m, steps, keys, declaring⟩ := declareSteps_ok lawful start ids
  have keys : Keyed.keys all.reverse = ids.map .text := by simpa [Keyed.keys] using keys
  have apart : (all.reverse.map (·.2)).Nodup := by
    rw [List.map_reverse]
    exact List.nodup_reverse.mpr declaring.apart
  refine ⟨all.reverse, m, ?_, ⟨keys, nodup, apart⟩, apart, fun entry member => ?_, declaring.satisfied, declaring.cost⟩
  · have walked : Value.fold L.declareStep ([], L.blank) (.list (ids.map .text)) = .ok (all, m) := steps
    rw [Problem.declareIn, texts]
    refine (Answers.lift walked).bind ?_
    dsimp only
    rw [Keyed.ofPairs_texts keys nodup]
    exact .pure _
  · exact declaring.known entry (List.mem_reverse.mp member)

theorem Sense.Lawful.exists_products (lawful : S.Lawful) {terms : List (Value × L.Variable)}
    (counted : ∀ term ∈ terms, scaledWeight term.1 = .ok term.1.parts ∧ term.1.parts.natAbs < 2 ^ 63) :
    ∃ es, List.Forall₂ (fun term e => scaledWeight term.1 = .ok term.1.parts ∧
        L.times term.1.parts term.2 = .ok e) terms es ∧
      ∀ σ, es.map (S.worth · σ) = terms.map fun term => if σ term.2 then term.1.parts else 0 := by
  have each : ∀ term ∈ terms, ∃ e, scaledWeight term.1 = .ok term.1.parts ∧ L.times term.1.parts term.2 = .ok e ∧
      ∀ σ, S.worth e σ = if σ term.2 then term.1.parts else 0 := by
    intro term member
    obtain ⟨scaled, small⟩ := counted term member
    obtain ⟨e, made, worth⟩ := lawful.times_ok term.1.parts term.2 small
    exact ⟨e, scaled, made, worth⟩
  obtain ⟨es, made⟩ := exists_forall₂ each
  refine ⟨es, made.imp fun _ _ all => ⟨all.1, all.2.1⟩, fun σ => ?_⟩
  rw [← List.forall₂_eq_eq_eq, List.forall₂_map_left_iff, List.forall₂_map_right_iff]
  exact made.flip.imp fun _ _ all => all.2.2 σ

theorem Sense.Lawful.minimizeSum_ok (lawful : S.Lawful) {terms : List (Int × L.Variable)} {es : List L.Expression}
    (small : ∀ term ∈ terms, term.1.natAbs < 2 ^ 63)
    (products : List.Forall₂ (fun term e => L.times term.1 term.2 = .ok e) terms es)
    (different : (terms.map (·.2)).Nodup) (known : ∀ term ∈ terms, S.HasVariable m term.2)
    (free : ∀ σ, S.cost m σ = 0) : ∃ next, L.minimizeSum es m = .ok next ∧
      (∀ σ, S.cost next σ = (es.map (S.worth · σ)).sum) ∧ ∀ σ, S.Satisfied next σ ↔ S.Satisfied m σ := by
  cases products with
  | nil => exact ⟨m, rfl, free, fun _ => Iff.rfl⟩
  | @cons term e rest es first later =>
    have some : term :: rest ≠ [] := List.cons_ne_nil _ _
    obtain ⟨next, set, cost, satisfied⟩ := lawful.minimize_ok _ _ m some small (.cons first later) different known
    exact ⟨next, set, fun σ => (cost σ).trans
      (lawful.sum_products _ _ σ some small (.cons first later) different), satisfied⟩

/-- The model is made; its rows say what the program says, and its objective counts the declared terms in parts. -/
theorem build_answers (lawful : S.Lawful) (texts : p.unknowns = .list (ids.map .text)) (nodup : ids.Nodup)
    (mapping : p.objective.IsMapping) (modest : ∀ c ∈ p.constraints, c.IsModest ids)
    (counted : ∀ term ∈ p.terms, scaledWeight term.2 = .ok term.2.parts ∧ term.2.parts.natAbs < 2 ^ 63) :
    ∃ m unknowns, Answers (L.build p) (m, unknowns) ∧ unknowns.Declares ids ∧
      ∀ chosen σ, unknowns.Carries chosen σ → (S.Satisfied m σ ↔ p.isSatisfied chosen = true) ∧
        S.cost m σ = Keyed.weigh chosen Value.parts (p.terms.filter fun term => unknowns.has term.1) := by
  obtain ⟨unknowns, first, declared, declares, declaring⟩ := declareIn_answers lawful texts nodup
  have related := Problem.termsOver_of_declares declares p
  have different := Problem.termsOver_apart declares (Problem.terms_apart mapping _) related
  have counted : ∀ term ∈ p.termsOver (Lookup.of unknowns),
      scaledWeight term.1 = .ok term.1.parts ∧ term.1.parts.natAbs < 2 ^ 63 := by
    intro next member
    obtain ⟨term, inside, weight, -⟩ := exists_of_mem_right related member
    rw [weight]
    exact counted term (List.mem_of_mem_filter inside)
  obtain ⟨es, products, worth⟩ := lawful.exists_products counted
  obtain ⟨mid, row, added, grown, holds⟩ := addConstraints_ok lawful declares modest declaring.known
  let terms : List (Int × L.Variable) := (p.termsOver (Lookup.of unknowns)).map fun term => (term.1.parts, term.2)
  have small : ∀ term ∈ terms, term.1.natAbs < 2 ^ 63 := by
    rintro _ member
    obtain ⟨term, inside, rfl⟩ := List.mem_map.mp member
    exact (counted term inside).2
  have known : ∀ term ∈ terms, S.HasVariable mid term.2 := by
    rintro _ member
    obtain ⟨next, inside, rfl⟩ := List.mem_map.mp member
    obtain ⟨_, -, -, id, -, entry⟩ := exists_of_mem_right related inside
    exact (grown.hasVariable _).mpr (declaring.known (.text id, next.2) entry)
  obtain ⟨last, set, cost, satisfied⟩ := lawful.minimizeSum_ok small
    (List.forall₂_map_left_iff.mpr (products.imp fun _ _ both => both.2)) (by rwa [List.map_map]) known
    fun σ => (grown.cost σ).trans (declaring.cost σ)
  refine ⟨last, unknowns, ?_, declares, fun chosen σ carries => ⟨?_, ?_⟩⟩
  · refine declared.bind ((Answers.lift added).bind ((Answers.mapM ?_).bind ((Answers.lift set).bind (.pure _))))
    refine products.imp fun term e both => ?_
    exact (Answers.lift both.1).bind (.lift both.2)
  · rw [satisfied, grown.satisfied, holds chosen σ carries]
    exact and_iff_right (declaring.satisfied σ)
  · rw [cost, worth, Problem.sum_termsOver carries Value.parts related]

end ScaledLibrary

end Matchmaking
