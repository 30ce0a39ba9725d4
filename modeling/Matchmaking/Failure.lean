import Matchmaking.Solver.Outcome
import Matchmaking.Value.Written

/-! Why a call fails, one constructor for each cause, and the sentences that say so. A sentence
that shows a value may itself fail to be written; `settle` then gives the cause of that. -/
namespace Matchmaking

inductive Failure where
  | wrongKind
  | outOfRange
  | noAttribute
  | tooLarge
  | outOfMemory
  | cannotStart
  | providerMissing
  | keyMissing
  | modelRefused
  | endlessText
  | undecodable
  | extremeBound
  | extremeEquality
  | badPair (place length : Nat)
  | repeatedElement (collection element : Value)
  | malformedIdentifier (identifier : Value)
  | wrongArity (names : List Value) (given : Nat)
  | wrongComponents (identifier : Value) (expected : Nat)
  | unknownOperator (operator : Value)
  | malformedName (name : Value)
  | nameIsIdentifier (name : Value)
  | nameIsKeyword (name : Value)
  | nameTaken (name : Value)
  | variablesMissing
  | relationMissing
  | emptyWeights (weight : Value)
  | badWeight (weight : Value)
  | unknownBackend (identifier : Value) (available : List Value)
  | backendInert (name : Value)
  | unknownStatus (label : String)
  | notInteger (value : Value)
  | integerTooLong (digits : Nat)
  | numeralTooLong
  | integerFromNaN
  | notReal (value : Value)
  | byteOutOfRange
  | notFound
  | zeroStride
  | zeroRangeStep
  | notAnElement (collection element : Value)
  | noElementAt (collection index : Value)
  | unknownCollection (name : Value) (known : List Value)
  | outsideElement (collection element : Value)
  | outsideIdentifier (identifier : Value)
  | unknownVariable (identifier : Value)
  | noSuchCollection (name : Value)
  | negativeCount (count : Int)
  | emptyCounts (spec : Value)
  | invertedCounts (low high : Int)
  | badCount (spec : Value)
  | executableMissing (executable : Value)
  | noModelSolver
  | infeasible (outcome : Outcome)
  deriving Inhabited

namespace Failure

inductive Kind where
  | type
  | index
  | attribute
  | overflow
  | memory
  | system
  | provider
  | key
  | model
  | recursion
  | decoding
  | arithmetic
  | value
  | unknownElement
  | count
  | runtime
  | infeasible
  deriving DecidableEq, Repr

def kind : Failure → Kind
  | .wrongKind => .type
  | .outOfRange => .index
  | .noAttribute => .attribute
  | .tooLarge => .overflow
  | .outOfMemory => .memory
  | .cannotStart => .system
  | .providerMissing => .provider
  | .keyMissing => .key
  | .modelRefused => .model
  | .endlessText => .recursion
  | .undecodable => .decoding
  | .extremeBound => .arithmetic
  | .notAnElement .. | .noElementAt .. | .unknownCollection .. | .outsideElement ..
  | .outsideIdentifier .. | .unknownVariable .. | .noSuchCollection .. => .unknownElement
  | .negativeCount .. | .emptyCounts .. | .invertedCounts .. | .badCount .. => .count
  | .executableMissing .. | .noModelSolver => .runtime
  | .infeasible .. => .infeasible
  | _ => .value

/-- The operators a constraint may be written with, in the order of their characters. -/
def operatorChoices : String := "<, <=, =, =<, ==, =>, >, >="

def quoted (v : Value) : Except Failure String :=
  match v.quoted? with
  | some s => .ok s
  | none => .error .numeralTooLong

def shown (v : Value) : Except Failure String :=
  match v.shown? with
  | some s => .ok s
  | none => .error .numeralTooLong

def whole (i : Int) : Except Failure String := shown (.int i)

def listed (names : List Value) : Except Failure String :=
  match names.mapM Value.text? with
  | some texts => .ok (Value.commaed texts)
  | none => .error .wrongKind

/-- How much of a value a complaint about a numeral shows. -/
def excerptLength : Nat := 200

/-- As much of a value's written form as a complaint about a numeral shows; bytes beyond the
excerpt have no say in how the others are quoted. -/
def excerpt (v : Value) : Except Failure String := do
  let v := match v with
    | .bytes value => .bytes (value.take excerptLength)
    | v => v
  return String.ofList ((← quoted v).toList.take excerptLength)

def orNone (text : String) : String := if text.isEmpty then "none" else text

/-- The sentence for a failure; kinds without a sentence have an empty one. -/
def sentence : Failure → Except Failure String
  | .wrongKind | .outOfRange | .noAttribute | .tooLarge | .outOfMemory | .cannotStart
  | .providerMissing | .keyMissing | .modelRefused | .endlessText | .undecodable
  | .extremeBound | .notFound => .ok ""
  | .extremeEquality => .ok "== INT_MIN or INT_MAX is not supported"
  | .badPair place length => .ok <|
    s!"dictionary update sequence element #{place} has length {length}; 2 is required"
  | .repeatedElement collection element => do
    return s!"Collection '{← shown collection}' contains {← quoted element} more than once."
  | .malformedIdentifier identifier => do
    return s!"Malformed variable identifier {← quoted identifier}"
  | .wrongArity names given => do
    return s!"Expected {names.length} elements ({← listed names}), got {given}."
  | .wrongComponents identifier expected => do
    return s!"Identifier {← quoted identifier} does not have {expected} components."
  | .unknownOperator operator => do
    return s!"Unknown constraint operator '{← shown operator}'. Expected one of: {operatorChoices}."
  | .malformedName name => do
    return s!"Constraint name {← quoted name} must start with a letter or underscore and " ++
      "contain only letters, digits and underscores."
  | .nameIsIdentifier name => do
    return s!"Constraint name {← quoted name} collides with a variable identifier."
  | .nameIsKeyword name => do
    return s!"Constraint name {← quoted name} is a reserved LP keyword."
  | .nameTaken name => do return s!"Constraint name '{← shown name}' is already in use."
  | .variablesMissing => .ok "Constraint spec requires 'variables'."
  | .relationMissing => .ok "Constraint spec requires 'operator' and 'target'."
  | .emptyWeights weight => do
    return s!"Weight range {← quoted weight} must contain at least one number."
  | .badWeight weight => do
    return s!"Composer weight must be a number or a range of numbers, got {← quoted weight}."
  | .unknownBackend identifier available => do
    let options := orNone (← listed available)
    return s!"Unknown solver backend '{← shown identifier}'. Available options: {options}."
  | .backendInert name => do
    return s!"Backend '{← shown name}' does not expose a solve() function."
  | .unknownStatus label => .ok (Text.quote label ++ " is not a valid SolverStatus")
  | .notInteger value => do
    return s!"invalid literal for int() with base 10: {← excerpt value}"
  | .integerTooLong digits => .ok <|
    s!"Exceeds the limit ({Numeral.digitLimit} digits) for integer string conversion: " ++
      s!"value has {digits} digits; use sys.set_int_max_str_digits() to increase the limit"
  | .numeralTooLong => .ok <|
    s!"Exceeds the limit ({Numeral.digitLimit} digits) for integer string conversion; " ++
      "use sys.set_int_max_str_digits() to increase the limit"
  | .integerFromNaN => .ok "cannot convert float NaN to integer"
  | .notReal value => do return s!"could not convert string to float: {← quoted value}"
  | .byteOutOfRange => .ok "byte must be in range(0, 256)"
  | .zeroStride => .ok "slice step cannot be zero"
  | .zeroRangeStep => .ok "range() arg 3 must not be zero"
  | .notAnElement collection element => do
    return s!"{← quoted element} is not an element of collection '{← shown collection}'."
  | .noElementAt collection index => do
    return s!"Collection '{← shown collection}' has no element at index {← shown index}."
  | .unknownCollection name known => do
    let options := orNone (← listed known)
    return s!"Unknown collection '{← shown name}'. Known collections: {options}."
  | .outsideElement collection element => do
    return s!"{← quoted element} of '{← shown collection}' is outside this subset."
  | .outsideIdentifier identifier => do
    return s!"Identifier {← quoted identifier} is outside this subset."
  | .unknownVariable identifier => do
    return s!"Variable {← quoted identifier} is not part of this match."
  | .noSuchCollection name => do return s!"Unknown collection '{← shown name}'."
  | .negativeCount count => do
    return s!"Match count must not be negative, got {← whole count}."
  | .emptyCounts spec => do return s!"Match count range {← quoted spec} is empty."
  | .invertedCounts low high => do
    return s!"Match count range ({← whole low}, {← whole high}) has min above max."
  | .badCount spec => do
    return s!"Matches per element must be an integer or a range, got {← quoted spec}."
  | .executableMissing executable => do
    return s!"lp_solve executable '{← shown executable}' is not available"
  | .noModelSolver => .ok "Neither HiGHS nor CBC is available to PuLP"
  | .infeasible outcome =>
    .ok s!"No valid matching exists (solver status: {outcome.status.label})."

/-- The failure that callers see: the one given, or what keeps its sentence from being
written. -/
def settle (failure : Failure) : Failure :=
  match failure.sentence with
  | .ok _ => failure
  | .error hindrance => hindrance

end Failure

end Matchmaking
