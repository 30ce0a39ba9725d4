import Mathlib.Data.List.Forall2
import Matchmaking.Proofs.Value.Sameness
import Matchmaking.Value.Filing

/-! Values of which no two are the same, and mappings with such keys. One of them at most is the
same as any given value, so whatever finds one at all finds that one. What is the same as a text
is that text, or the operator that it is the symbol of. -/
namespace Matchmaking

variable {α β : Type}

namespace Value

theorem text?_eq_sign (v : Value) : v.text? = match v.sign with
    | .text s => some s
    | _ => none := by
  unfold sign
  cases v.text? <;> cases v.number?.bind Number.floor? <;> rfl

theorem text?_eq_of_same {a b : Value} (same : a.same b = true) : a.text? = b.text? := by
  rw [text?_eq_sign, text?_eq_sign, sign_eq_of_same same]

theorem isKey_of_isText {v : Value} (text : v.isText = true) : v.isKey = true := by
  cases v <;> first | rfl | cases text

theorem same_of_text? {a b : Value} {s : String} (left : a.text? = some s) (right : b.text? = some s) :
    a.same b = true := by
  have key : a.isKey = true := isKey_of_isText (by simp [isText, left])
  have other : b.isKey = true := isKey_of_isText (by simp [isText, right])
  exact same_trans key (same_text_iff.mpr left) (same_symm other (same_text_iff.mpr right))

end Value

/-- Keys of which no two are the same. -/
structure Value.Different (values : List Value) : Prop where
  keys : ∀ v ∈ values, v.isKey = true
  apart : values.Pairwise fun a b => a.same b = false

namespace Value.Different

theorem nil : Different [] := ⟨by simp, .nil⟩

theorem append_single {values : List Value} {v : Value} (different : Different values)
    (key : v.isKey = true) (fresh : ∀ other ∈ values, other.same v = false) :
    Different (values ++ [v]) where
  keys := by
    intro other member
    rcases List.mem_append.mp member with old | new
    · exact different.keys other old
    · rw [List.mem_singleton.mp new]; exact key
  apart := by
    rw [List.pairwise_append]
    exact ⟨different.apart, List.pairwise_singleton .., fun other old last new => by
      rw [List.mem_singleton.mp new]; exact fresh other old⟩

theorem nodup {values : List Value} (different : Different values) : values.Nodup := by
  refine different.apart.imp_of_mem fun {a b} member _ apart equal => ?_
  rw [← equal, same_refl (different.keys a member)] at apart
  cases apart

theorem sublist {values others : List Value} (different : Different values) (part : others.Sublist values) :
    Different others :=
  ⟨fun v member => different.keys v (part.subset member), different.apart.sublist part⟩

theorem place_unique {values : List Value} (different : Different values) {i j : Nat}
    (first : i < values.length) (second : j < values.length) {v : Value}
    (left : values[i].same v = true) (right : values[j].same v = true) : i = j := by
  have key (k : Nat) (bound : k < values.length) := different.keys _ (List.getElem_mem bound)
  have same : values[i].same values[j] = true :=
    same_trans (key i first) left (same_symm (key j second) right)
  have apart := List.pairwise_iff_getElem.mp different.apart
  rcases Nat.lt_trichotomy i j with less | equal | more
  · simp [apart i j first second less] at same
  · exact equal
  · have same := same_symm (key i first) same
    simp [apart j i second first more] at same

end Value.Different

namespace Keyed

theorem keys_eq_of_forall₂ {entries : Keyed α} {others : Keyed β} {R : Value × α → Value × β → Prop}
    (related : List.Forall₂ R entries others)
    (names : ∀ entry other, R entry other → entry.1 = other.1) : entries.keys = others.keys := by
  rw [keys, keys, ← List.forall₂_eq_eq_eq, List.forall₂_map_left_iff, List.forall₂_map_right_iff]
  exact related.imp names

/-- Entries with keys of which no two are the same. -/
def IsMapping (entries : Keyed β) : Prop := Value.Different entries.keys

theorem place?_eq_some {entries : Keyed β} (mapping : entries.IsMapping) {key : Value} {i : Nat} :
    entries.place? key = some i ↔ ∃ bound : i < entries.length, entries[i].1.same key = true := by
  rw [place?, List.findIdx?_eq_some_iff_getElem]
  refine ⟨fun ⟨bound, same, _⟩ => ⟨bound, same⟩, fun ⟨bound, same⟩ => ⟨bound, same, ?_⟩⟩
  intro j less also
  have equal : j = i := mapping.place_unique (v := key) (by simpa [keys] using Nat.lt_trans less bound)
    (by simpa [keys] using bound) (by simpa [keys] using also) (by simpa [keys] using same)
  omega

theorem IsMapping.entry_unique {entries : Keyed β} (mapping : entries.IsMapping) {first second : Value × β}
    (member : first ∈ entries) (member' : second ∈ entries) {v : Value} (same : first.1.same v = true)
    (same' : second.1.same v = true) : first = second := by
  obtain ⟨i, bound, rfl⟩ := List.getElem_of_mem member
  obtain ⟨j, bound', rfl⟩ := List.getElem_of_mem member'
  have places : i = j := mapping.place_unique (v := v) (by simpa [keys] using bound)
    (by simpa [keys] using bound') (by simpa [keys] using same) (by simpa [keys] using same')
  subst places
  rfl

theorem get?_eq_some {entries : Keyed β} (mapping : entries.IsMapping) {key : Value} {datum : β} :
    entries.get? key = some datum ↔ ∃ other, (other, datum) ∈ entries ∧ other.same key = true := by
  constructor
  · intro found
    obtain ⟨entry, first, rfl⟩ := Option.map_eq_some_iff.mp found
    exact ⟨entry.1, List.mem_of_find?_eq_some first, by simpa using List.find?_some first⟩
  · rintro ⟨other, member, same⟩
    have any : (entries.find? fun entry => entry.1.same key).isSome = true :=
      List.find?_isSome.mpr ⟨_, member, same⟩
    obtain ⟨entry, found⟩ := Option.isSome_iff_exists.mp any
    have equal := mapping.entry_unique (List.mem_of_find?_eq_some found) member
      (by simpa using List.find?_some found) same
    rw [get?, found, Option.map_some, equal]

theorem get?_of_mem {entries : Keyed β} (mapping : entries.IsMapping) {key : Value} {datum : β}
    (member : (key, datum) ∈ entries) : entries.get? key = some datum :=
  (get?_eq_some mapping).mpr ⟨key, member,
    Value.same_refl (mapping.keys key (List.mem_map.mpr ⟨_, member, rfl⟩))⟩

end Keyed

theorem Roster.has_iff {roster : Roster} {v : Value} :
    roster.has v = true ↔ ∃ other ∈ roster.keys, other.same v = true := by
  rw [Filing.has_eq, Keyed.has_iff]
  rfl

end Matchmaking
