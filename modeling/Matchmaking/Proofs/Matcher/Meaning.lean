import Matchmaking.Matcher.Call
import Matchmaking.Proofs.Matcher.Expansion
import Matchmaking.Proofs.Matcher.Setup
import Matchmaking.Proofs.Rule.Count
import Matchmaking.Proofs.Rule.Marker

/-! What configuration calls mean, said of elements alone. Calls let rows be selected and demand
something of the selected ones; a count of the last call for a collection bounds how many of the
selected rows hold each of its elements. Identifiers, views and rows of a program play no part. -/
namespace Matchmaking

namespace Call

def includes (table : Table) : Call → List Value → Bool
  | .addComposer restriction _, row => table.lies restriction row
  | .includeMarkers map _, row => map.shares table row
  | _, _ => false

def weight? : Call → Option Value
  | .addComposer _ weight | .includeMarkers _ weight => some weight
  | _ => none

def count? (name : Value) : Call → Option (Value × Int)
  | .setCount collection count (.int padding) =>
    if collection.same name then some (count, padding) else none
  | _ => none

/-- Whether a call is one of those with a meaning on elements: whole numbers where it counts,
and mappings where it looks names up. -/
def IsRule : Call → Prop
  | .addComposer .. | .exclude .. => True
  | .includeMarkers map _ | .excludeMarkers map => map.IsMapping
  | .setCount _ count padding =>
    ((Count.fixed? count).isSome ∨ (Count.span? count).isSome) ∧ ∃ p, padding = .int p
  | .require op restriction target _ =>
    restriction.IsMapping ∧ ((∃ n, target = .int n) ∨ op = .eq ∧ target = .null)
  | .addRow _ => False

end Call

namespace Table

variable (table : Table)

/-- Whether calls let a row be selected: all rows if none lets any, and else those that one does. -/
def isActive (calls : List Call) (row : List Value) : Bool :=
  calls.any (·.includes table row) ||
    !table.rows.any fun other => calls.any (·.includes table other)

def number (kind : List Value → Bool) : Nat := table.rows.countP kind

def holdsAt (name e : Value) (row : List Value) : Bool :=
  (table.names.zip row).any fun (other, element) => other.same name && element.same e

/-- Whether as many of the rows in a restriction are selected as are asked for, if one of them is
active. Without a target all are asked for, the ones that are not active as well. -/
def Asked (op : Operator) (target : Value) (active selected : List Value → Bool) (part : Keyed Value) : Prop :=
  (∃ row ∈ table.rows, active row = true ∧ table.lies part row = true) →
    match target with
    | .int n => op.holds (table.number fun row => selected row && table.lies part row) n = true
    | _ => ∀ row ∈ table.rows, table.lies part row = true → selected row = true

def Obeyed (active selected : List Value → Bool) : Call → Prop
  | .exclude restriction _ => ∀ row ∈ table.rows, table.lies restriction row = true → selected row = false
  | .excludeMarkers map => ∀ row ∈ table.rows, map.shares table row = true → selected row = false
  | .require op restriction target _ =>
    ∀ part, Matcher.Picks restriction part → table.Asked op target active selected part
  | _ => True

/-- Whether the selected rows hold every element of a collection as often as the last count for
the collection asks. -/
def CountedIn (calls : List Call) (active selected : List Value → Bool) (name : Value)
    (elements : List Value) : Prop :=
  ∀ count padding, (calls.filterMap (Call.count? name)).getLast? = some (count, padding) →
    ∀ e ∈ elements, 0 < table.number (fun row => active row && table.holdsAt name e row) →
      Count.Agrees count padding (table.number fun row => active row && table.holdsAt name e row)
        (table.number fun row => selected row && table.holdsAt name e row)

def Counted (calls : List Call) (active selected : List Value → Bool) : Prop :=
  ∀ collection ∈ table.collections, table.CountedIn calls active selected collection.1 collection.2.keys

end Table

/-- The matchers that successful calls lead to, whatever namer each call draws from. -/
inductive Matcher.Run (start : Matcher) : List Call → Matcher → Prop where
  | start : Run start [] start
  | call {calls : List Call} {m next : Matcher} {call : Call} {namer left : Namer} {answer : Answer}
      (before : Run start calls m) (gives : call.run.Gives ⟨m, namer⟩ answer ⟨next, left⟩) :
      Run start (calls ++ [call]) next

end Matchmaking
