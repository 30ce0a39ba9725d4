import Mathlib.Algebra.BigOperators.Group.List.Basic
import Mathlib.Data.List.Nodup
import Matchmaking.Problem.Declared
import Matchmaking.Proofs.Problem.Writing
import Matchmaking.Proofs.Value.Mapping

/-! Programs whose variables are all declared, each as something else. A choice of variables carries over to
what they are declared as; rows and objectives keep all their variables, and sums over the chosen ones
stay as they are. -/
namespace Matchmaking

open Stateful

namespace Keyed

variable {β M : Type} {chosen : String → Bool}

/-- What stands beside the chosen variables, added up. -/
def weigh [Zero M] [Add M] (chosen : String → Bool) (amount : β → M) (entries : Keyed β) : M :=
  (entries.map fun entry => if entry.1.text?.any chosen then amount entry.2 else 0).sum

theorem weigh_filter [AddMonoid M] {amount : β → M} {keep : Value × β → Bool} {entries : Keyed β}
    (nothing : ∀ entry ∈ entries, keep entry = false → entry.1.text?.any chosen = true → amount entry.2 = 0) :
    weigh chosen amount (entries.filter keep) = weigh chosen amount entries := by
  induction entries with
  | nil => rfl
  | cons entry rest ih =>
    obtain ⟨first, others⟩ := List.forall_mem_cons.mp nothing
    have tail := ih others
    unfold weigh at tail ⊢
    rw [List.filter_cons]
    cases kept : keep entry with
    | true => rw [if_pos rfl, List.map_cons, List.map_cons, List.sum_cons, List.sum_cons, tail]
    | false =>
      rw [if_neg Bool.false_ne_true, List.map_cons, List.sum_cons, tail]
      split
      · rename_i own
        rw [first kept own, zero_add]
      · rw [zero_add]

theorem ofPairs_texts {entries : Keyed β} {ids : List String} (keys : entries.keys = ids.map .text) (nodup : ids.Nodup) :
    ofPairs entries = entries := by
  have grown (filed : Keyed β) (apart : (filed ++ entries).Pairwise fun a b => a.1.same b.1 = false) :
      entries.foldl (fun filed entry => put filed entry.1 entry.2) filed = filed ++ entries := by
    clear keys
    induction entries generalizing filed with
    | nil => simp
    | cons entry rest ih =>
      have new : filed.has entry.1 = false := by
        refine Bool.eq_false_iff.mpr fun held => ?_
        obtain ⟨other, member, same⟩ := has_iff.mp held
        obtain ⟨early, inside, rfl⟩ := List.mem_map.mp member
        have differs := (List.pairwise_append.mp apart).2.2 early inside entry List.mem_cons_self
        rw [differs] at same
        cases same
      rw [List.foldl_cons, put, alter_of_not_has new, ih _ (by simpa using apart), List.append_assoc,
        List.singleton_append]
  have differ : entries.keys.Pairwise fun a b => a.same b = false := by
    rw [keys, List.pairwise_map]
    exact nodup.imp fun differ => Bool.eq_false_iff.mpr fun same =>
      differ (Option.some.inj (Value.same_text_iff.mp same))
  rw [ofPairs_eq, grown [] (List.pairwise_map.mp differ), List.nil_append]

theorem get?_of_text? (unknowns : Keyed β) {v : Value} {id : String} (text : v.text? = some id) :
    unknowns.get? v = unknowns.get? (.text id) := by
  have same (key : Value) : key.same v = key.same (.text id) := by
    rw [Bool.eq_iff_iff, Value.same_text_iff]
    exact ⟨fun same => (Value.text?_eq_of_same same).trans text, fun own => Value.same_of_text? own text⟩
  simp only [get?, same]

/-- Different data under different texts. -/
structure Declares (unknowns : Keyed β) (ids : List String) : Prop where
  keys : unknowns.keys = ids.map .text
  nodup : ids.Nodup
  apart : (unknowns.map (·.2)).Nodup

/-- Whether what is chosen among the data is what is chosen among the texts. -/
def Carries (unknowns : Keyed β) (chosen : String → Bool) (σ : β → Bool) : Prop :=
  ∀ entry ∈ unknowns, σ entry.2 = entry.1.text?.any chosen

namespace Declares

variable {unknowns : Keyed β} {ids : List String}

theorem entry_eq (declares : unknowns.Declares ids) {a b : Value × β} (first : a ∈ unknowns) (second : b ∈ unknowns)
    (same : a.2 = b.2) : a = b :=
  List.inj_on_of_nodup_map declares.apart first second same

theorem exists_carries (declares : unknowns.Declares ids) (chosen : String → Bool) :
    ∃ σ, unknowns.Carries chosen σ := by
  classical
  refine ⟨fun x => decide (∃ entry ∈ unknowns, entry.2 = x ∧ entry.1.text?.any chosen = true), fun entry member => ?_⟩
  rw [Bool.eq_iff_iff, decide_eq_true_eq]
  constructor
  · rintro ⟨other, listed, same, chose⟩
    rwa [← declares.entry_eq listed member same]
  · exact fun chose => ⟨entry, member, rfl, chose⟩

theorem exists_entry (declares : unknowns.Declares ids) {id : String} (member : id ∈ ids) :
    ∃ x, unknowns.get? (.text id) = some x ∧ (.text id, x) ∈ unknowns := by
  have listed : Value.text id ∈ unknowns.keys := declares.keys ▸ List.mem_map_of_mem member
  have held : unknowns.has (.text id) = true := has_iff.mpr ⟨_, listed, Value.same_text_iff.mpr rfl⟩
  obtain ⟨x, found⟩ := Option.isSome_iff_exists.mp held
  obtain ⟨⟨key, datum⟩, first, rfl⟩ := Option.map_eq_some_iff.mp found
  have own : key ∈ unknowns.keys := List.mem_map_of_mem (List.mem_of_find?_eq_some first)
  obtain ⟨other, -, rfl⟩ := List.mem_map.mp (declares.keys ▸ own)
  have same := List.find?_some first
  obtain rfl : other = id := by simpa [Value.same_text_iff, Value.text?] using same
  exact ⟨datum, found, List.mem_of_find?_eq_some first⟩

end Declares

end Keyed

variable {α β : Type} {unknowns : Keyed β} {ids : List String} {chosen : String → Bool} {σ : β → Bool}

theorem filterMap_of_forall₂ {f : α → Option β} {xs : List α} {ys : List β}
    (related : List.Forall₂ (fun x y => f x = some y) xs ys) : xs.filterMap f = ys := by
  induction related with
  | nil => rfl
  | cons first _ ih => rw [List.filterMap_cons_some first, ih]

namespace Constraint

variable {c : Constraint} {listed : List String}

theorem exists_members (declares : unknowns.Declares ids) (texts : c.unknowns = listed.map .text)
    (inside : ∀ id ∈ listed, id ∈ ids) : ∃ xs, c.members (Lookup.of unknowns) = .ok xs ∧
      List.Forall₂ (fun id x => (.text id, x) ∈ unknowns) listed xs := by
  obtain ⟨xs, found⟩ := exists_forall₂ fun id member => declares.exists_entry (inside id member)
  have keys : (listed.map Value.text).mapM Value.asKey = .ok (listed.map Value.text) := by
    rw [mapM_eq_ok, List.forall₂_map_left_iff, List.forall₂_map_right_iff]
    exact List.forall₂_same.mpr fun _ _ => rfl
  refine ⟨xs, ?_, found.imp fun _ _ both => both.2⟩
  rw [members, texts, keys, ok_bind, pure_eq_ok, filterMap_of_forall₂]
  rw [List.forall₂_map_left_iff]
  exact found.imp fun _ _ both => by rw [Lookup.get?_of, both.1]

theorem total_members (texts : c.unknowns = listed.map .text) {xs : List β} (carries : unknowns.Carries chosen σ)
    (found : List.Forall₂ (fun id x => (Value.text id, x) ∈ unknowns) listed xs) :
    xs.countP σ = c.total chosen := by
  rw [total_text texts]
  clear texts
  induction found with
  | nil => rfl
  | cons first _ ih => simp [List.countP_cons, ih, carries _ first, Value.text?]

end Constraint

namespace Problem

variable {p : Problem}

theorem declare_answers (texts : p.unknowns = .list (ids.map .text)) (nodup : ids.Nodup) {f : String → β}
    (apart : Function.Injective f) {make : Value → Except Failure β} (made : ∀ id, make (.text id) = .ok (f id)) :
    ∃ unknowns, Answers (p.declare make) unknowns ∧ unknowns.Declares ids := by
  refine ⟨ids.map fun id => (.text id, f id), ?_, ?_, nodup, ?_⟩
  · have walked := walk_texts (fun v => do
      let datum ← make v
      return (← v.asKey, datum)) (fun id => (Value.text id, f id)) (fun id => by rw [made]; rfl) ids
    rw [declare, texts, walked]
    refine (Answers.lift rfl).bind ?_
    rw [Keyed.ofPairs_texts (by simp [Keyed.keys]) nodup]
    exact .pure _
  · simp [Keyed.keys]
  · rw [List.map_map]
    exact List.Nodup.map apart nodup

theorem termsOver_of_declares (declares : unknowns.Declares ids) (p : Problem) :
    List.Forall₂ (fun term next => next.1 = term.2 ∧
      ∃ id, term.1.text? = some id ∧ (.text id, next.2) ∈ unknowns)
      (p.terms.filter fun term => unknowns.has term.1) (p.termsOver (Lookup.of unknowns)) := by
  have kept : p.termsOver (Lookup.of unknowns) = (p.terms.filter fun term => unknowns.has term.1).filterMap
      fun term => (unknowns.get? term.1).map (term.2, ·) := by
    rw [termsOver, List.filterMap_filter]
    refine List.filterMap_congr fun ⟨v, weight⟩ _ => ?_
    dsimp only
    rw [Lookup.get?_of, Keyed.has]
    cases unknowns.get? v <;> rfl
  have found : ∀ term ∈ p.terms.filter fun term => unknowns.has term.1, ∃ next : Value × β,
      (unknowns.get? term.1).map (term.2, ·) = some next ∧ next.1 = term.2 ∧
        ∃ id, term.1.text? = some id ∧ (.text id, next.2) ∈ unknowns := by
    intro term member
    obtain ⟨key, listed, same⟩ := Keyed.has_iff.mp (List.mem_filter.mp member).2
    obtain ⟨id, own, rfl⟩ := List.mem_map.mp (declares.keys ▸ listed)
    obtain ⟨x, found, entry⟩ := declares.exists_entry own
    have text : term.1.text? = some id := (Value.text?_eq_of_same same).symm
    refine ⟨(term.2, x), ?_, rfl, id, text, entry⟩
    rw [Keyed.get?_of_text? unknowns text, found]
    rfl
  obtain ⟨terms, found⟩ := exists_forall₂ found
  rw [kept, filterMap_of_forall₂ (found.imp fun _ _ both => both.1)]
  exact found.imp fun _ _ both => both.2

theorem termsOver_apart (declares : unknowns.Declares ids) {terms : Keyed Value}
    (apart : terms.Pairwise fun a b => a.1.same b.1 = false) {found : List (Value × β)}
    (related : List.Forall₂ (fun term next => next.1 = term.2 ∧
      ∃ id, term.1.text? = some id ∧ (.text id, next.2) ∈ unknowns) terms found) :
    (found.map (·.2)).Nodup := by
  induction related with
  | nil => exact .nil
  | @cons term next rest others first later ih =>
    obtain ⟨fresh, apart⟩ := List.pairwise_cons.mp apart
    refine List.nodup_cons.mpr ⟨fun member => ?_, ih apart⟩
    obtain ⟨other, listed, same⟩ := List.mem_map.mp member
    obtain ⟨early, inside, -, id, text, entry⟩ := exists_of_mem_right later listed
    obtain ⟨-, id', text', entry'⟩ := first
    have equal : (Value.text id, other.2) = (.text id', next.2) := declares.entry_eq entry entry' same
    obtain rfl : id = id' := Value.text.inj (Prod.mk.inj equal).1
    have differs := fresh early inside
    rw [Value.same_of_text? text' text] at differs
    cases differs

/-- Terms with declared variables weigh what they weigh with the identifiers. -/
theorem sum_termsOver {M : Type} [Zero M] [Add M] (carries : unknowns.Carries chosen σ) (amount : Value → M)
    {terms : Keyed Value} {found : List (Value × β)} (related : List.Forall₂ (fun term next => next.1 = term.2 ∧
      ∃ id, term.1.text? = some id ∧ (.text id, next.2) ∈ unknowns) terms found) :
    (found.map fun next => if σ next.2 then amount next.1 else 0).sum = terms.weigh chosen amount := by
  rw [Keyed.weigh]
  congr 1
  rw [← List.forall₂_eq_eq_eq, List.forall₂_map_left_iff, List.forall₂_map_right_iff]
  refine related.flip.imp fun next term ⟨weight, id, text, entry⟩ => ?_
  rw [weight, carries _ entry, text]
  rfl

end Problem

end Matchmaking
