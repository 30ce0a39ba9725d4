import Matchmaking.Proofs.Number.Order
import Matchmaking.Value.Equality

/-! Sameness of values as equality of what identifies them. A number is identified by where it
stands in the order, whatever its kind, a text by its characters, a row by its items. Lists and
mappings, which are no keys, are left without an identity; on keys sameness is an equivalence. -/
namespace Matchmaking

/-- What same values have in common. -/
inductive Identity where
  | nan (mark : Nat)
  | number (level : Int) (count : Rat)
  | text (value : String)
  | null
  | bytes (value : List UInt8)
  | range (length : Nat) (start step : Int)
  | stream (mark : Nat)
  | tuple (items : List Identity)
  | exactly (count : Identity)
  | between (minimum maximum : Identity)
  | missing

namespace Identity

mutual

def known : Identity → Bool
  | .missing => false
  | .tuple items => knownAll items
  | .exactly count => known count
  | .between minimum maximum => known minimum && known maximum
  | _ => true

def knownAll : List Identity → Bool
  | [] => true
  | item :: rest => known item && knownAll rest

end

end Identity

attribute [local irreducible] Binary64.one

namespace Number

def identity : Number → Identity
  | .whole value => .number 0 (value * Binary64.one : Int)
  | .ratio value => .number 0 (value * (Binary64.one : Int))
  | .real (.nan mark) => .nan mark
  | .real (.infinite negative) => .number (if negative then -1 else 1) (0 : Int)
  | .real (.finite negative units) => .number 0 (Binary64.signed negative units)

theorem eq_nan_left (mark : Nat) (y : Number) : eq (.real (.nan mark)) y = false := by
  simp [Number.eq, compare?, rank?, Binary64.rank?]

theorem eq_nan_right (x : Number) (mark : Nat) : eq x (.real (.nan mark)) = false := by
  cases x <;> simp [Number.eq, compare?, rank?, Binary64.rank?]

theorem identity_of_rank {x : Number} {a : Int} {m : Rat} (stands : x.rank? = some (a, m)) :
    x.identity = .number a m := by
  match x with
  | .whole _ | .ratio _ | .real (.infinite _) | .real (.finite ..) =>
    cases stands
    rfl
  | .real (.nan mark) => cases stands

theorem rank_or_nan (x : Number) : (∃ a m, x.rank? = some (a, m)) ∨ ∃ mark, x = .real (.nan mark) := by
  match x with
  | .real (.nan mark) => exact .inr ⟨mark, rfl⟩
  | .whole _ | .ratio _ | .real (.infinite _) | .real (.finite ..) => exact .inl ⟨_, _, rfl⟩

end Number

namespace Value

theorem sameNumber_iff (x y : Number) : sameNumber x y = true ↔ x.identity = y.identity := by
  rcases x.rank_or_nan with ⟨a, m, left⟩ | ⟨mark, rfl⟩
  · have ordinary : sameNumber x y = x.eq y := by
      unfold sameNumber
      split
      · simp [Number.rank?, Binary64.rank?] at left
      · rfl
    rw [ordinary, Number.identity_of_rank left]
    rcases y.rank_or_nan with ⟨b, n, right⟩ | ⟨mark, rfl⟩
    · rw [Number.eq_iff_of_exact left right, Number.identity_of_rank right, Identity.number.injEq]
    · simp [Number.eq_nan_right, Number.identity]
  · rcases y.rank_or_nan with ⟨b, n, right⟩ | ⟨other, rfl⟩
    · have ordinary : sameNumber (.real (.nan mark)) y = Number.eq (.real (.nan mark)) y := by
        unfold sameNumber
        split
        · simp [Number.rank?, Binary64.rank?] at right
        · rfl
      rw [ordinary, Number.eq_nan_left, Number.identity_of_rank right]
      simp [Number.identity]
    · simp [sameNumber, Number.identity]

def rangeIdentity (start stop step : Int) : Identity :=
  let length := rangeLength start stop step
  .range length (if length = 0 then 0 else start) (if length ≤ 1 then 0 else step)

theorem sameRange_iff (a b c d e f : Int) :
    sameRange a b c d e f = true ↔ rangeIdentity a b c = rangeIdentity d e f := by
  simp only [sameRange, rangeIdentity, Bool.and_eq_true, Bool.or_eq_true, beq_iff_eq,
    Identity.range.injEq]
  grind

mutual

def identity : Value → Identity
  | .null => .null
  | .bool value => (Number.whole value.toInt).identity
  | .int value => (Number.whole value).identity
  | .ratio value => (Number.ratio value).identity
  | .real value => (Number.real value).identity
  | .text value => .text value
  | .operator value => .text value.symbol
  | .bytes value => .bytes value
  | .range start stop step => rangeIdentity start stop step
  | .stream mark _ => .stream mark
  | .tuple items => .tuple (identities items)
  | .exactly count => .exactly (identity count)
  | .between minimum maximum => .between (identity minimum) (identity maximum)
  | .list _ => .missing
  | .dict _ => .missing

def identities : List Value → List Identity
  | [] => []
  | item :: rest => identity item :: identities rest

end

theorem identity_of_number {v : Value} {x : Number} (number : v.number? = some x) :
    v.identity = x.identity := by
  cases v <;> simp_all [number?, identity]

theorem identity_of_text {v : Value} {s : String} (text : v.text? = some s) :
    v.identity = .text s := by
  cases v <;> simp_all [text?, identity]

theorem identity_ne {v : Value} (number : v.number? = none) (x : Number) : v.identity ≠ x.identity := by
  have numeric : (∃ mark, x.identity = .nan mark) ∨ ∃ (level : Int) (count : Rat), x.identity = .number level count := by
    rcases x.rank_or_nan with ⟨_, _, stands⟩ | ⟨mark, rfl⟩
    · exact .inr ⟨_, _, Number.identity_of_rank stands⟩
    · exact .inl ⟨mark, rfl⟩
  rcases numeric with ⟨mark, equal⟩ | ⟨level, count, equal⟩ <;> rw [equal] <;>
    cases v <;> simp_all [number?, identity, rangeIdentity]

theorem identity_ne_text {v : Value} (number : v.number? = none) (text : v.text? = none)
    (s : String) : v.identity ≠ .text s := by
  cases v <;> simp_all [number?, text?, identity, rangeIdentity]

def holdsOthers : Value → Bool
  | .list _ | .tuple _ | .dict _ | .exactly _ | .between .. => true
  | _ => false

theorem sameAtom_iff {a : Value} (atom : a.holdsOthers = false) (b : Value) :
    sameAtom a b = true ↔ a.identity = b.identity := by
  unfold sameAtom
  cases left : a.number? with
  | some x =>
    rw [identity_of_number left]
    cases right : b.number? with
    | some y => rw [identity_of_number right]; exact sameNumber_iff x y
    | none => simpa using (identity_ne right x).symm
  | none =>
    cases right : b.number? with
    | some y => simpa [identity_of_number right] using identity_ne left y
    | none =>
      cases texts : a.text? with
      | some s =>
        rw [identity_of_text texts]
        cases others : b.text? with
        | some t => simp [identity_of_text others]
        | none => simpa using (identity_ne_text right others s).symm
      | none =>
        cases others : b.text? with
        | some t => simpa [identity_of_text others] using identity_ne_text left texts t
        | none =>
          cases a <;> simp [holdsOthers, number?, text?] at atom left texts <;>
            cases b <;> simp_all [identity, rangeIdentity, number?, text?]
          simpa [rangeIdentity] using sameRange_iff ..

theorem same_of_atom {a : Value} (atom : a.holdsOthers = false) (b : Value) :
    a.same b = sameAtom a b := by
  cases a <;> simp [holdsOthers] at atom <;> rw [same] <;> simp

mutual

/-- A key is the same as just those values that have its identity. -/
theorem same_iff : (a : Value) → a.isKey = true → (b : Value) →
    (a.same b = true ↔ a.identity = b.identity)
  | .tuple items, keys, b => by
    cases b with
    | tuple others =>
      rw [same, identity, identity, Identity.tuple.injEq]
      exact sameAll_iff items (by simpa [isKey] using keys) others
    | real x =>
      rw [@identity_of_number (.real x) _ rfl]
      simpa [same, sameAtom, number?, text?] using @identity_ne (.tuple items) rfl (.real x)
    | _ => simp [same, sameAtom, number?, text?, identity, rangeIdentity, Number.identity]
  | .exactly count, key, b => by
    cases b with
    | exactly other =>
      rw [same, identity, identity, Identity.exactly.injEq]
      exact same_iff count (by simpa [isKey] using key) other
    | real x =>
      rw [@identity_of_number (.real x) _ rfl]
      simpa [same, sameAtom, number?, text?] using @identity_ne (.exactly count) rfl (.real x)
    | _ => simp [same, sameAtom, number?, text?, identity, rangeIdentity, Number.identity]
  | .between low high, keys, b => by
    have keys : low.isKey = true ∧ high.isKey = true := by simpa [isKey] using keys
    cases b with
    | between low' high' =>
      rw [same, identity, identity, Identity.between.injEq, Bool.and_eq_true,
        same_iff low keys.1, same_iff high keys.2]
    | real x =>
      rw [@identity_of_number (.real x) _ rfl]
      simpa [same, sameAtom, number?, text?] using @identity_ne (.between low high) rfl (.real x)
    | _ => simp [same, sameAtom, number?, text?, identity, rangeIdentity, Number.identity]
  | .list _, key, _ => by simp [isKey] at key
  | .dict _, key, _ => by simp [isKey] at key
  | .null, _, b => by rw [same_of_atom rfl, sameAtom_iff rfl]
  | .bool _, _, b => by rw [same_of_atom rfl, sameAtom_iff rfl]
  | .int _, _, b => by rw [same_of_atom rfl, sameAtom_iff rfl]
  | .ratio _, _, b => by rw [same_of_atom rfl, sameAtom_iff rfl]
  | .real _, _, b => by rw [same_of_atom rfl, sameAtom_iff rfl]
  | .text _, _, b => by rw [same_of_atom rfl, sameAtom_iff rfl]
  | .operator _, _, b => by rw [same_of_atom rfl, sameAtom_iff rfl]
  | .bytes _, _, b => by rw [same_of_atom rfl, sameAtom_iff rfl]
  | .range .., _, b => by rw [same_of_atom rfl, sameAtom_iff rfl]
  | .stream .., _, b => by rw [same_of_atom rfl, sameAtom_iff rfl]

theorem sameAll_iff : (xs : List Value) → allKeys xs = true → (ys : List Value) →
    (sameAll xs ys = true ↔ identities xs = identities ys)
  | [], _, ys => by cases ys <;> simp [sameAll, identities]
  | x :: xs, keys, ys => by
    have keys : x.isKey = true ∧ allKeys xs = true := by simpa [allKeys] using keys
    cases ys with
    | nil => simp [sameAll, identities]
    | cons y ys =>
      rw [sameAll, identities, identities, Bool.and_eq_true, List.cons.injEq, same_iff x keys.1,
        sameAll_iff xs keys.2]

end

mutual

theorem known_identity : (v : Value) → v.identity.known = v.isKey
  | .tuple items => by rw [identity, Identity.known, isKey, knownAll_identities items]
  | .exactly count => by rw [identity, Identity.known, isKey, known_identity count]
  | .between low high => by
    rw [identity, Identity.known, isKey, known_identity low, known_identity high]
  | .null | .bool _ | .int _ | .ratio _ | .text _ | .operator _ | .bytes _ | .list _ | .dict _
  | .range .. | .stream .. => rfl
  | .real (.nan _) | .real (.infinite _) | .real (.finite ..) => rfl

theorem knownAll_identities : (values : List Value) →
    Identity.knownAll (identities values) = allKeys values
  | [] => rfl
  | v :: rest => by
    rw [identities, Identity.knownAll, allKeys, known_identity v, knownAll_identities rest]

end

theorem isKey_of_same {a b : Value} (key : a.isKey = true) (same : a.same b = true) :
    b.isKey = true := by
  rw [← known_identity, ← (same_iff a key b).1 same, known_identity, key]

theorem length_eq_of_sameAll {xs ys : List Value} (same : sameAll xs ys = true) :
    xs.length = ys.length := by
  induction xs generalizing ys with
  | nil => cases ys <;> simp [sameAll] at same ⊢
  | cons x xs ih =>
    cases ys with
    | nil => simp [sameAll] at same
    | cons y ys =>
      simp only [sameAll, Bool.and_eq_true] at same
      simp [ih same.2]

theorem same_refl {a : Value} (key : a.isKey = true) : a.same a = true :=
  (same_iff a key a).2 rfl

theorem same_symm {a b : Value} (key : a.isKey = true) (same : a.same b = true) :
    b.same a = true :=
  (same_iff b (isKey_of_same key same) a).2 ((same_iff a key b).1 same).symm

theorem same_trans {a b c : Value} (key : a.isKey = true) (first : a.same b = true)
    (second : b.same c = true) : a.same c = true :=
  (same_iff a key c).2 (((same_iff a key b).1 first).trans
    ((same_iff b (isKey_of_same key first) c).1 second))

theorem same_text_iff {v : Value} {s : String} : v.same (.text s) = true ↔ v.text? = some s := by
  cases v <;> simp [same, sameAtom, number?, text?]

end Value

end Matchmaking
