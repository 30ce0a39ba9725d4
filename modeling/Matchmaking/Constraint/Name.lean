import Matchmaking.Space.Identifier

/-! Names of rows. A name is a plain word that is neither an identifier of a variable nor a
keyword of the program text. A namer hands out its stem with running numbers, leaving out the
names that are taken, and lets callers claim names of their own. -/
namespace Matchmaking

namespace Name

def isLetter (c : Char) : Bool :=
  ('A' ≤ c && c ≤ 'Z') || ('a' ≤ c && c ≤ 'z') || c == '_'

def isWord : List Char → Bool
  | [] => false
  | c :: rest => isLetter c && rest.all fun c => isLetter c || ('0' ≤ c && c ≤ '9')

def keywords : List String :=
  ["int", "bin", "sec", "sin", "free", "max", "min", "maximise", "maximize", "minimise",
    "minimize"]

def isKeyword (s : String) : Bool := keywords.contains (String.ofList (s.toList.map Char.toLower))

def isUsable (s : String) : Bool :=
  isWord s.toList && !Identifier.hasForm s && !isKeyword s

/-- The text of a value that can name a row. -/
def check (name : Value) : Except Failure String :=
  match name.text? with
  | none => .error (.malformedName name)
  | some s =>
    if !isWord s.toList then .error (.malformedName name)
    else if Identifier.hasForm s then .error (.nameIsIdentifier name)
    else if isKeyword s then .error (.nameIsKeyword name)
    else .ok s

end Name

structure Namer where
  stem : String := "constraint"
  next : Nat := 0
  reserved : Roster := .empty
  taken : Roster := .empty
  deriving Inhabited

namespace Namer

/-- A namer whose reserved names, of whatever kind, count as taken from the start. -/
def make (stem : Value) (reserved : Value) : Except Failure Namer := do
  let stem ← Failure.shown stem
  let names := Roster.ofList (← reserved.traverse Value.asKey)
  return ⟨stem, 0, names, names⟩

def numbered (stem : String) (number : Nat) : String :=
  stem ++ String.ofList (Nat.toDigits 10 number)

def isTaken (namer : Namer) (name : String) : Bool := namer.taken.has (.text name)

/-- The first number from `start` on, within `fuel` steps, whose name is free. -/
def seek (namer : Namer) : Nat → Nat → Option Nat
  | 0, _ => none
  | fuel + 1, start =>
    if namer.isTaken (numbered namer.stem start) then seek namer fuel (start + 1)
    else some start

/-- The number of the next name handed out. One step more than there are names taken is always
enough. -/
def nextFree (namer : Namer) : Nat :=
  (namer.seek (namer.taken.size + 1) namer.next).getD namer.next

def hand (namer : Namer) : String × Namer :=
  let number := namer.nextFree
  let name := numbered namer.stem number
  (name, { namer with next := number + 1, taken := Roster.add namer.taken (.text name) })

/-- Takes a name of the caller's choice, which has to be usable and free. -/
def claim (namer : Namer) (name : Value) : Except Failure (String × Namer) := do
  let s ← Name.check name
  if namer.isTaken s then .error (.nameTaken name)
  else return (s, { namer with taken := Roster.add namer.taken name })

def reset (namer : Namer) : Namer := { namer with next := 0, taken := namer.reserved }

/-- The names taken, in ascending order; they have to be of one kind. -/
def sorted (namer : Namer) : Except Failure (List Value) :=
  let names := namer.taken.keys
  match names.mapM Value.text?, names.mapM Value.number? with
  | some _, _ => .ok (names.mergeSort fun a b => a.text?.getD "" ≤ b.text?.getD "")
  | none, some _ => .ok (names.mergeSort fun a b =>
      Number.le (a.number?.getD default) (b.number?.getD default))
  | none, none => if names.length ≤ 1 then .ok names else .error .wrongKind

end Namer

end Matchmaking
