import Matchmaking.Value.Keyed

/-! Values read one after the other within one call. A stream that is given in several places has
its items where it is read first and none anywhere else. -/
namespace Matchmaking

def Value.mark? : Value → Option Nat
  | .stream mark _ => some mark
  | _ => none

/-- What is left of a value where streams of some marks have been read. -/
def Value.behind (read : List Nat) : Value → Value
  | .stream mark items => .stream mark (if mark ∈ read then [] else items)
  | v => v

/-- What is left of each value for a reader of one after the other. -/
def Value.inTurn (read : List Nat) : List Value → List Value
  | [] => []
  | v :: rest => v.behind read :: inTurn (v.mark?.toList ++ read) rest

namespace Keyed

def marks (entries : Keyed Value) : List Nat := entries.filterMap (·.2.mark?)

/-- The data as a reader of one after the other finds them. -/
def inTurn (read : List Nat) : Keyed Value → Keyed Value
  | [] => []
  | (key, v) :: rest => (key, v.behind read) :: inTurn (v.mark?.toList ++ read) rest

end Keyed

end Matchmaking
