/-! Blanks and line ends in text of any script, and the cuts made at them. A line end always is
a blank; the unit separator, tabs and spaces of any width are blanks only. -/
namespace Matchmaking.Text

def isLineEnd (c : Char) : Bool :=
  c ∈ ['\n', '\x0b', '\x0c', '\r', '\x1c', '\x1d', '\x1e', '\u0085', '\u2028', '\u2029']

def isBlank (c : Char) : Bool :=
  isLineEnd c || c ∈ ['\t', '\x1f', ' ', '\u00a0', '\u1680', '\u202f', '\u205f', '\u3000'] ||
    ('\u2000' ≤ c && c ≤ '\u200a')

/-- The six blanks that a numeral may stand between. -/
def isNumeralBlank (c : Char) : Bool :=
  c ∈ [' ', '\t', '\n', '\x0b', '\x0c', '\r']

def trimEnd (blank : Char → Bool) (s : List Char) : List Char :=
  (s.reverse.dropWhile blank).reverse

def trim (blank : Char → Bool) (s : List Char) : List Char :=
  trimEnd blank (s.dropWhile blank)

/-- The lines of a text; a carriage return and the line feed after it end one line together,
and nothing after the last line end is no line. -/
def lines (s : List Char) : List (List Char) :=
  go s []
where
  go : List Char → List Char → List (List Char)
    | [], [] => []
    | [], line => [line.reverse]
    | '\r' :: '\n' :: rest, line => line.reverse :: go rest []
    | c :: rest, line => if isLineEnd c then line.reverse :: go rest [] else go rest (c :: line)

def fields (s : List Char) : List (List Char) :=
  go s []
where
  go : List Char → List Char → List (List Char)
    | [], [] => []
    | [], field => [field.reverse]
    | c :: rest, field =>
      if isBlank c then
        if field.isEmpty then go rest [] else field.reverse :: go rest []
      else go rest (c :: field)

/-- Text as a reader sees it that takes every ending of a line for a line feed. -/
def unifyLineEnds : List Char → List Char
  | [] => []
  | '\r' :: '\n' :: rest => '\n' :: unifyLineEnds rest
  | c :: rest => (if c = '\r' then '\n' else c) :: unifyLineEnds rest

theorem isBlank_of_isLineEnd (h : isLineEnd c = true) : isBlank c = true := by
  simp [isBlank, h]

end Matchmaking.Text
