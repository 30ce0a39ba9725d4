import Matchmaking.Matcher.Basic
import Matchmaking.Text.Distinct

/-! Composing a program from a matcher's rules: the active identifiers, one row or two for
every element whose collection has a count rule, and the accumulated weights. -/
namespace Matchmaking

namespace Matcher

/-- The identifiers that may be selected, in a fixed order: each at its first place. -/
def active (m : Matcher) : List String :=
  if m.composers.isEmpty then m.space.ids
  else Text.distinct (m.composers.flatMap fun composer => composer.view.ids)

/-- The identifiers that rows are narrowed to, if they are narrowed at all. -/
def scope (m : Matcher) : Option (Std.HashSet String) :=
  if m.composers.isEmpty then none else some (.ofList m.active)

def narrow (scope : Option (Std.HashSet String)) (ids : List String) : List String :=
  match scope with
  | none => ids
  | some active => ids.filter active.contains

def narrowRow (scope : Option (Std.HashSet String)) (unknowns : List Value) : List Value :=
  match scope with
  | none => unknowns
  | some active => unknowns.filter fun v => v.text?.any active.contains

def nameRows (namer : Namer) : List Constraint → List Constraint × Namer
  | [] => ([], namer)
  | c :: rest =>
    let (name, namer) := namer.hand
    let (named, namer) := nameRows namer rest
    ({ c with name := .text name } :: named, namer)

def countRows (rule : Count) (padding : Int) (ids : List String) :
    Except Failure (List Constraint) := do
  let unknowns := ids.map Value.text
  match rule with
  | .exactly count =>
    return [{ unknowns, operator := .eq, target := ← count.atMost ids.length }]
  | .between minimum maximum =>
    return [
      { unknowns, operator := .ge, target := ← minimum.atMost (ids.length - padding),
        flexible := .bool true },
      { unknowns, operator := .le, target := maximum }]

/-- The count rows over what a scope leaves of the identifiers, named apart from the given
names. -/
def countConstraintsIn (m : Matcher) (scope : Option (Std.HashSet String)) (taken : Roster) :
    Except Failure (List Constraint) := do
  let rows ← m.counts.mapM fun (collection, rule, padding) => do
    let elements ← m.space.table.elements collection
    let rows ← elements.mapM fun element => do
      let ids ← m.space.idsWith collection element
      countRows rule padding (narrow scope ids)
    return rows.flatten
  return (nameRows { stem := "count", reserved := taken, taken } rows.flatten).1

def countConstraints (m : Matcher) (taken : Roster) : Except Failure (List Constraint) :=
  m.countConstraintsIn m.scope taken

/-- What the weights handed to each identifier add up to, and the identifiers in the order in
which they first got one. -/
structure Sums where
  order : Array String := #[]
  totals : Std.HashMap String Value := ∅

namespace Sums

def sum (sums : Sums) (id : String) : Value := sums.totals.getD id (.int 0)

def add (sums : Sums) (id : String) (weight : Value) : Except Failure Sums := do
  let total ← (sums.sum id).add weight
  return {
    order := if sums.totals.contains id then sums.order else sums.order.push id
    totals := sums.totals.insert id total }

/-- The sums with a composer's weights handed out to its tuples in turn. -/
def addAll (sums : Sums) (composer : Composer) : Except Failure Sums := do
  let ids := composer.view.ids
  let weights ← Weight.take ids.length composer.weight
  (ids.zip weights).foldlM (fun sums (id, weight) => sums.add id weight) sums

def toKeyed (sums : Sums) : Keyed Value := sums.order.toList.map fun id => (.text id, sums.sum id)

end Sums

/-- The accumulated weights of identifiers; without composers each tuple of the space has one. -/
def objective (m : Matcher) : Except Failure (Keyed Value) := do
  let composers := if m.composers.isEmpty then [⟨.int 1, m.space⟩] else m.composers
  return (← composers.foldlM Sums.addAll {}).toKeyed

/-- The program over the active identifiers, with the rows of a matcher and its count rows as
far as a scope leaves them. -/
def composeIn (m : Matcher) (active : List String) (scope : Option (Std.HashSet String))
    (counts : List Constraint) : Except Failure Problem := do
  let finalized ← (m.constraints ++ counts).mapM fun c => c.keeping (narrowRow scope c.unknowns)
  return {
    unknowns := .list (active.map .text)
    objective := ← m.objective
    constraints := finalized.filterMap id }

def compose (m : Matcher) (taken : Roster) : Except Failure Problem := do
  m.composeIn m.active m.scope (← m.countConstraints taken)

end Matcher

namespace Desk

def problem (desk : Desk) : Except Failure Problem := desk.matcher.compose desk.namer.taken

def countConstraints (desk : Desk) : Except Failure (List Constraint) :=
  desk.matcher.countConstraints desk.namer.taken

end Desk

end Matchmaking
