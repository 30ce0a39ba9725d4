import Matchmaking.Value.Basic

/-! Equality of values. Numbers are equal by what they count, whatever their kind, and texts
by their characters; a list never equals a tuple. `nan` differs from itself as a number but is
recognised by its mark inside containers and as a key. -/
namespace Matchmaking.Value

def sameRange (start stop step start' stop' step' : Int) : Bool :=
  let length := rangeLength start stop step
  length == rangeLength start' stop' step' &&
    (length == 0 || start == start' && (length == 1 || step == step'))

def sameNumber : Number → Number → Bool
  | .real (.nan m), .real (.nan n) => m == n
  | x, y => x.eq y

def sameAtom (a b : Value) : Bool :=
  match a.number?, b.number? with
  | some x, some y => sameNumber x y
  | some _, none => false
  | none, some _ => false
  | none, none =>
    match a.text?, b.text? with
    | some s, some t => s == t
    | some _, none => false
    | none, some _ => false
    | none, none =>
      match a, b with
      | .null, .null => true
      | .bytes s, .bytes t => s == t
      | .range a b c, .range d e f => sameRange a b c d e f
      | .stream m _, .stream n _ => m == n
      | _, _ => false

mutual

/-- Whether containers take two values for one. -/
def same : Value → Value → Bool
  | .list xs, .list ys => sameAll xs ys
  | .tuple xs, .tuple ys => sameAll xs ys
  | .dict xs, .dict ys => xs.length == ys.length && sameEntries xs ys
  | .exactly m, .exactly n => same m n
  | .between a b, .between c d => same a c && same b d
  | a, b => sameAtom a b

def sameAll : List Value → List Value → Bool
  | [], [] => true
  | x :: xs, y :: ys => same x y && sameAll xs ys
  | _, _ => false

def sameEntries : List (Value × Value) → List (Value × Value) → Bool
  | [], _ => true
  | (key, value) :: rest, others =>
    others.any (fun entry => same key entry.1 && same value entry.2) && sameEntries rest others

end

/-- Equality as a comparison of the two values alone. -/
def equal (a b : Value) : Bool := !a.isNaN && same a b

mutual

/-- Whether a value can be an element or a key: lists and mappings cannot. -/
def isKey : Value → Bool
  | .list _ => false
  | .dict _ => false
  | .tuple items => allKeys items
  | .exactly count => isKey count
  | .between minimum maximum => isKey minimum && isKey maximum
  | _ => true

def allKeys : List Value → Bool
  | [] => true
  | item :: rest => isKey item && allKeys rest

end

def isAmong (v : Value) (others : List Value) : Bool := others.any (v.same ·)

end Matchmaking.Value
