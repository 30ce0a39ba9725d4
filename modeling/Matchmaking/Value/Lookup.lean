import Matchmaking.Value.Keyed
import Std.Data.HashMap.Lemmas

/-! Fast look-up among many keys. Same keys have the same sign, so keys are filed in buckets by
their signs and only one bucket is searched. What is found is what a search through all entries
finds. -/
namespace Matchmaking

/-- What same values have in common: the characters of texts and the whole part of numbers. -/
inductive Sign where
  | text (value : String)
  | whole (value : Int)
  | other
  deriving DecidableEq, Hashable

namespace Value

def sign (v : Value) : Sign :=
  match v.text?, v.number?.bind Number.floor? with
  | some s, _ => .text s
  | none, some i => .whole i
  | none, none => .other

theorem sign_eq_of_sameNumber {x y : Number} (h : sameNumber x y = true) :
    x.floor? = y.floor? := by
  unfold sameNumber at h
  split at h
  · rfl
  · exact Number.floor?_eq_of_eq h

theorem sign_eq_of_sameAtom {a b : Value} (h : sameAtom a b = true) : a.sign = b.sign := by
  unfold sameAtom at h
  unfold sign
  cases ha : a.number? <;> cases hb : b.number? <;> simp only [ha, hb] at h
  · cases hs : a.text? <;> cases ht : b.text? <;> simp only [hs, ht] at h
    · rfl
    · cases h
    · cases h
    · rw [eq_of_beq h]
  · cases h
  · cases h
  · have noText : ∀ {v : Value} {n : Number}, v.number? = some n → v.text? = none := by
      intro v n hv
      cases v <;> first | rfl | cases hv
    rw [noText ha, noText hb]
    simp only [Option.bind_some, sign_eq_of_sameNumber h]

theorem sign_eq_of_same {a b : Value} (h : a.same b = true) : a.sign = b.sign := by
  unfold same at h
  split at h
  all_goals first | rfl | exact sign_eq_of_sameAtom h

end Value

/-- Entries in buckets by the signs of their keys. -/
structure Lookup (β : Type) where
  buckets : Std.HashMap Sign (Keyed β)

namespace Lookup

variable {β : Type}

def empty : Lookup β := ⟨∅⟩

def add (found : Lookup β) (entry : Value × β) : Lookup β :=
  ⟨found.buckets.alter entry.1.sign fun bucket => some (bucket.getD [] ++ [entry])⟩

def of (entries : Keyed β) : Lookup β := entries.foldl add empty

def bucket (found : Lookup β) (sign : Sign) : Keyed β := found.buckets.getD sign []

def get? (found : Lookup β) (key : Value) : Option β := (found.bucket key.sign).get? key

def has (found : Lookup β) (key : Value) : Bool := (found.get? key).isSome

theorem bucket_add (found : Lookup β) (entry : Value × β) (sign : Sign) :
    (found.add entry).bucket sign =
      found.bucket sign ++ if entry.1.sign = sign then [entry] else [] := by
  unfold add bucket
  rw [Std.HashMap.getD_alter]
  by_cases h : entry.1.sign = sign
  · subst h; simp [Std.HashMap.getD_eq_getD_getElem?]
  · simp [h]

theorem bucket_foldl_add (entries : Keyed β) (found : Lookup β) (sign : Sign) :
    (entries.foldl add found).bucket sign =
      found.bucket sign ++ entries.filter fun entry => entry.1.sign = sign := by
  induction entries generalizing found with
  | nil => simp
  | cons entry rest ih =>
    rw [List.foldl_cons, ih, bucket_add, List.filter_cons]
    by_cases h : entry.1.sign = sign <;> simp [h]

theorem bucket_of (entries : Keyed β) (sign : Sign) :
    (of entries).bucket sign = entries.filter fun entry => entry.1.sign = sign := by
  rw [of, bucket_foldl_add]
  simp [empty, bucket]

/-- Nothing is missed by searching one bucket. -/
theorem get?_of (entries : Keyed β) (key : Value) : (of entries).get? key = entries.get? key := by
  unfold get? Keyed.get?
  rw [bucket_of, List.find?_filter]
  congr 2
  funext entry
  by_cases h : entry.1.same key = true
  · simp [h, Value.sign_eq_of_same h]
  · simp [h]

theorem has_of (entries : Keyed β) (key : Value) : (of entries).has key = entries.has key := by
  rw [has, get?_of, Keyed.has]

theorem get?_add (found : Lookup β) (entry : Value × β) (key : Value) :
    (found.add entry).get? key =
      (found.get? key).or (if entry.1.same key then some entry.2 else none) := by
  unfold get? Keyed.get?
  rw [bucket_add, List.find?_append]
  by_cases h : entry.1.sign = key.sign
  · cases matched : entry.1.same key <;> simp [h, matched]
  · have : entry.1.same key = false := by
      simpa using mt Value.sign_eq_of_same h
    simp [h, this]

end Lookup

end Matchmaking
