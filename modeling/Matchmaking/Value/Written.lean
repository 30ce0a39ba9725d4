import Matchmaking.Number.Literal
import Matchmaking.Text.Quoted
import Matchmaking.Value.Basic

/-! How values are written: `shown?` inside a sentence, where a text stands as it is, and
`quoted?` where it has to be told from other kinds. There is no written form if a whole number
in the value has too many digits. -/
namespace Matchmaking.Value

def commaed (parts : List String) : String := String.intercalate ", " parts

mutual

def quoted? : Value → Option String
  | .null => some "None"
  | .bool value => some (if value then "True" else "False")
  | .int value => Numeral.writeInt? value
  | .ratio value => do
    return "Fraction(" ++ (← Numeral.writeInt? value.num) ++ ", " ++
      (← Numeral.writeInt? value.den) ++ ")"
  | .real value => some value.toText
  | .text value => some (Text.quote value)
  | .bytes value => some (Text.quoteBytes value)
  | .list items => do return "[" ++ commaed (← quotedAll? items) ++ "]"
  | .tuple items => do
    let parts ← quotedAll? items
    return "(" ++ commaed parts ++ (if parts.length = 1 then ",)" else ")")
  | .dict entries => do return "\x7b" ++ commaed (← quotedEntries? entries) ++ "\x7d"
  | .range start stop step => do
    let bounds := [start, stop] ++ if step = 1 then [] else [step]
    return "range(" ++ commaed (← bounds.mapM Numeral.writeInt?) ++ ")"
  | .stream .. => some "<list_iterator object>"
  | .exactly count => do return "Exact(count=" ++ (← quoted? count) ++ ")"
  | .between minimum maximum => do
    return "Bounded(minimum=" ++ (← quoted? minimum) ++ ", maximum=" ++ (← quoted? maximum) ++ ")"
  | .operator value => some ("<Operator." ++ value.label ++ ": '" ++ value.symbol ++ "'>")

def quotedAll? : List Value → Option (List String)
  | [] => some []
  | item :: rest => do return (← quoted? item) :: (← quotedAll? rest)

def quotedEntries? : List (Value × Value) → Option (List String)
  | [] => some []
  | (key, value) :: rest => do
    return ((← quoted? key) ++ ": " ++ (← quoted? value)) :: (← quotedEntries? rest)

end

def shown? : Value → Option String
  | .text value => some value
  | .operator value => some ("Operator." ++ value.label)
  | .ratio value => do
    let num ← Numeral.writeInt? value.num
    if value.den = 1 then return num else return num ++ "/" ++ (← Numeral.writeInt? value.den)
  | v => v.quoted?

end Matchmaking.Value
