/-!
# Reading position

A place in a YAML text, with the line and column that layout depends on.
-/

namespace RailBus.Yaml

/-- Line breaks are unified, so that only these are left. -/
def isBreak (c : Char) : Bool := c == '\n' || c == '\u2028' || c == '\u2029'

def isSpace (c : Char) : Bool := c == ' ' || c == '\t'

def isGap (c : Char) : Bool := isSpace c || isBreak c

def isWordChar (c : Char) : Bool := c.isAlphanum || c == '-' || c == '_'

def byteOrderMark : Char := '\ufeff'

def isPrintable (c : Char) : Bool :=
  let n := c.toNat
  n = 0x09 || n = 0x0A || n = 0x0D || (0x20 ≤ n && n ≤ 0x7E) || n = 0x85 ||
    (0xA0 ≤ n && n ≤ 0xD7FF) || (0xE000 ≤ n && n ≤ 0xFFFD) || 0x10000 ≤ n

/-- Writes every way to end a line as a line feed. -/
def unifyBreaks : List Char → List Char
  | [] => []
  | '\r' :: '\n' :: rest => '\n' :: unifyBreaks rest
  | '\r' :: rest => '\n' :: unifyBreaks rest
  | '\u0085' :: rest => '\n' :: unifyBreaks rest
  | c :: rest => c :: unifyBreaks rest

structure Cursor where
  rest : List Char
  line : Nat := 0
  column : Nat := 0
  /-- how many bytes come before it -/
  index : Nat := 0

namespace Cursor

def advance (c : Cursor) : Cursor :=
  match c.rest with
  | [] => c
  | x :: rest =>
    let index := c.index + x.utf8Size
    if isBreak x then { rest := rest, line := c.line + 1, column := 0, index := index }
    else { c with rest := rest, column := c.column + 1, index := index }

def skip (c : Cursor) : Nat → Cursor
  | 0 => c
  | n + 1 => c.advance.skip n

def peek (c : Cursor) : Option Char := c.rest.head?

def span (c : Cursor) (p : Char → Bool) : List Char × Cursor :=
  let taken := c.rest.takeWhile p
  (taken, c.skip taken.length)

/-- Whether what follows `n` characters is white space or the end. -/
def gapAfter (c : Cursor) (n : Nat) : Bool := (c.rest[n]?).all isGap

def startsWith (c : Cursor) (text : String) : Bool := text.toList.isPrefixOf c.rest

/-- At a line that begins or ends a document. -/
def atMarker (c : Cursor) : Bool :=
  c.column == 0 && (c.startsWith "---" || c.startsWith "...") && c.gapAfter 3

/-- Passes spaces and a comment, up to the end of the line. -/
def endOfLine? (c : Cursor) : Option Cursor :=
  let c := (c.span isSpace).2
  let c := if c.peek = some '#' then (c.span (!isBreak ·)).2 else c
  match c.rest with
  | [] => some c
  | x :: _ => if isBreak x then some c.advance else none

end Cursor

/-! ## Gaps -/

/-- White space inside a scalar: spaces within a line, or line breaks. -/
structure Gap where
  spaces : List Char := []
  breaks : List Char := []

namespace Gap

/-- A single line break reads as a space, of several the first is dropped. -/
def folded (g : Gap) : List Char :=
  match g.breaks with
  | [] => g.spaces
  | ['\n'] => [' ']
  | '\n' :: more => more
  | other => other

/-- Reads white space. A tab may not stand where indentation reaches up to `indent`. -/
def read? (indent : Nat) : Nat → Gap → Cursor → Option (Gap × Cursor)
  | 0, g, c => some (g, c)
  | n + 1, g, c =>
    match c.peek with
    | none => some (g, c)
    | some x =>
      if isBreak x then read? indent n { spaces := [], breaks := g.breaks ++ [x] } c.advance
      else if isSpace x then
        if g.breaks.isEmpty then read? indent n { g with spaces := g.spaces ++ [x] } c.advance
        else if x = '\t' ∧ c.column < indent then none
        else read? indent n g c.advance
      else some (g, c)

end Gap
end RailBus.Yaml
