import Matchmaking.Solver.Outcome
import Matchmaking.Space.Identifier
import Matchmaking.Text.Distinct
import Matchmaking.Text.Lowercase

/-! Reading a solver's printed listing. Status sentences count only before the header of the
listing, which itself may echo rows of any name; a variable is selected when a line holds just
its identifier and a value that reads as one. -/
namespace Matchmaking.Listing

def infeasibleSentence : String := "this problem is infeasible"
def unboundedSentence : String := "this problem is unbounded"
def header : String := "actual values of the variables"

/-- The part of a text before the first occurrence of another, and whether there is one. -/
def before (part : List Char) (s : List Char) : List Char × Bool :=
  if part.isPrefixOf s then ([], true)
  else match s with
    | [] => ([], false)
    | c :: rest =>
      let (front, found) := before part rest
      (c :: front, found)

/-- The sentence on a line, without the full stops at its end. -/
def sentence (line : List Char) : String :=
  String.ofList (Text.trimEnd (· == '.') (Text.trim Text.isBlank line))

def isOne (token : List Char) : Bool :=
  match Numeral.readReal? (String.ofList token) with
  | some x =>
    Number.lt (.real (x.sub (.ofInt 1)).abs) (.real (.ofDecimal false ⟨1, -6⟩))
  | none => false

def selectedOn? (line : List Char) : Option String :=
  match Text.fields line with
  | [name, value] =>
    let name := String.ofList name
    if Identifier.hasForm name && isOne value then some name else none
  | _ => none

/-- The selected variables of a text, each once, in the order of their first lines. -/
def selected (known : Option (Lookup Unit)) (s : List Char) : List String :=
  let found := (Text.lines s).filterMap selectedOn?
  let wanted := match known with
    | none => found
    | some ids => found.filter fun name => ids.has (.text name)
  Text.distinct wanted

/-- Status and selection of a listing; of the variables only the known ones count, if any are
given. -/
def read (text : String) (known : Option Value) : Except Failure (Status × List String) := do
  let lowered := Text.lowercase text.toList
  let (preamble, hasHeader) := before header.toList lowered
  let sentences := (Text.lines preamble).map sentence
  if sentences.contains infeasibleSentence then return (.infeasible, [])
  else if sentences.contains unboundedSentence then return (.invalid, [])
  else
    let ids ← known.mapM (Value.traverse Value.asKey)
    let names := selected (ids.map fun ids => .of (ids.map (·, ()))) text.toList
    if !hasHeader && names.isEmpty then return (.unknown, [])
    else return (.optimal, names)

end Matchmaking.Listing
