import RailBus.Yaml.Cursor
import RailBus.Text.Numeral

/-!
# Scalars of a YAML text

Plain, quoted and block scalars: where each ends and what text it stands for.
-/

namespace RailBus.Yaml

/-! ## Plain -/

/-- The characters of a plain scalar up to white space or an indicator. Inside a flow collection
a colon may not stand right before an indicator. -/
def plainWord? (flow : Bool) : List Char → Option (List Char)
  | [] => some []
  | x :: rest =>
    if isGap x then some []
    else if flow && x == ':' && rest.head?.any (· ∈ [',', '?', '[', ']', '{', '}']) then none
    else if x == ':' && rest.head?.all isGap then some []
    else if flow && x ∈ [',', '[', ']', '{', '}'] then some []
    else (plainWord? flow rest).map (x :: ·)

/-- Reads words and the gaps between them; returns the text and the gap left at the end. Here as
below the bound on the steps is also one on the characters left. -/
def plainFrom? (flow : Bool) (indent : Nat) :
    Nat → List Char → Gap → Cursor → Option (List Char × Gap × Cursor)
  | 0, _, _, _ => none
  | n + 1, text, gap, c =>
    if c.atMarker || c.peek == some '#' then some (text, gap, c)
    else do
      let word ← plainWord? flow c.rest
      let (text, gap) := if word.isEmpty then (text, gap) else (text ++ gap.folded ++ word, {})
      let c := c.skip word.length
      if !c.peek.any isGap then some (text, gap, c)
      else
        let (gap, c) ← Gap.read? indent (n + 1) {} c
        if !flow && c.column < indent then some (text, gap, c)
        else plainFrom? flow indent n text gap c

/-- The text of a plain scalar and whether it ends behind a line break. -/
def plain? (flow : Bool) (indent : Nat) (c : Cursor) : Option (String × Bool × Cursor) :=
  (plainFrom? flow indent (c.rest.length + 1) [] {} c).map fun (text, gap, c) =>
    (String.ofList text, !gap.breaks.isEmpty, c)

/-! ## Quoted -/

def simpleEscape? (x : Char) : Option Char :=
  [('0', '\x00'), ('a', '\x07'), ('b', '\x08'), ('t', '\t'), ('\t', '\t'), ('n', '\n'),
   ('v', '\x0b'), ('f', '\x0c'), ('r', '\r'), ('e', '\x1b'), (' ', ' '), ('"', '"'), ('/', '/'),
   ('\\', '\\'), ('N', '\u0085'), ('_', '\u00a0'), ('L', '\u2028'), ('P', '\u2029')].lookup x

def codeLength? (x : Char) : Option Nat := [('x', 2), ('u', 4), ('U', 8)].lookup x

/-- A character by its number, which takes exactly `count` digits. -/
def codeEscape? (count : Nat) (cs : List Char) : Option Char :=
  if (cs.take count).length = count then do
    let n ← Text.digits? 16 0 (cs.take count)
    if n.isValidChar then some (Char.ofNat n) else none
  else none

/-- What stands in a quoted scalar up to white space or the closing quote: the text, how many
characters it takes, and whether it ends with an escaped line break. -/
def quotedWord? (single : Bool) : Nat → List Char → Option (List Char × Nat × Bool)
  | 0, _ => none
  | n + 1, cs =>
    let more (x : Char) (taken : Nat) :=
      (quotedWord? single n (cs.drop taken)).map fun (text, count, joined) =>
        (x :: text, count + taken, joined)
    match cs with
    | [] => some ([], 0, false)
    | '\'' :: '\'' :: _ => if single then more '\'' 2 else more '\'' 1
    | '\'' :: _ => if single then some ([], 0, false) else more '\'' 1
    | '"' :: _ => if single then more '"' 1 else some ([], 0, false)
    | '\\' :: x :: rest =>
      if single then more '\\' 1
      else if isBreak x then some ([], 2, true)
      else
        match simpleEscape? x, codeLength? x with
        | some y, _ => more y 2
        | none, some count => (codeEscape? count rest).bind (more · (count + 2))
        | none, none => none
    | x :: _ => if isGap x then some ([], 0, false) else more x 1

def quotedFrom? (single : Bool) : Nat → List Char → Cursor → Option (List Char × Cursor)
  | 0, _, _ => none
  | n + 1, text, c =>
    if c.atMarker || c.rest.isEmpty then none
    else do
      let (word, taken, joined) ← quotedWord? single (n + 1) c.rest
      let c := c.skip taken
      let text := text ++ word
      if c.peek = some (if single then '\'' else '"') then some (text, c.advance)
      else
        let (gap, c) ← Gap.read? 0 (n + 1) {} c
        quotedFrom? single n (text ++ if joined then gap.breaks else gap.folded) c

/-- Reads a quoted scalar from its opening quote on. -/
def quoted? (single : Bool) (c : Cursor) : Option (String × Cursor) :=
  (quotedFrom? single (c.rest.length + 1) [] c.advance).map fun (text, c) => (String.ofList text, c)

/-! ## Block -/

/-- What becomes of the line breaks at the end of a block scalar. -/
inductive Chomp
  | strip
  | clip
  | keep
  deriving DecidableEq

def chomp? : Char → Option Chomp
  | '-' => some .strip
  | '+' => some .keep
  | _ => none

/-- An indentation of one to nine columns. -/
def increment? (c : Char) : Option Nat :=
  if '1' ≤ c ∧ c ≤ '9' then some (c.toNat - '0'.toNat) else none

/-- The chomping and indentation indicators, in either order. -/
def blockHeader (c : Cursor) : Chomp × Option Nat × Cursor :=
  let chomp := c.peek.bind chomp?
  let c := if chomp.isSome then c.advance else c
  let increment := c.peek.bind increment?
  let c := if increment.isSome then c.advance else c
  let later := if chomp.isNone ∧ increment.isSome then c.peek.bind chomp? else none
  let c := if later.isSome then c.advance else c
  ((chomp <|> later).getD .clip, increment, c)

/-- Passes empty lines and indentation, up to `indent` columns or, while that is not known, as
far as spaces go. Returns the line breaks and the deepest column reached. -/
def blockBreaks? (indent : Option Nat) :
    Nat → Nat → List Char → Cursor → Option (Nat × List Char × Cursor)
  | 0, _, _, _ => none
  | n + 1, deepest, breaks, c =>
    let spaces := (c.rest.takeWhile (· == ' ')).length
    let c := c.skip (match indent with
      | none => spaces
      | some k => min spaces (k - c.column))
    let deepest := max deepest c.column
    if c.peek = some '\t' ∧ indent.all (c.column < ·) then none
    else if c.peek.any isBreak then
      blockBreaks? indent n deepest (breaks ++ c.rest.take 1) c.advance
    else some (deepest, breaks, c)

/-- The lines at column `indent`. `leading` is the break before the next line, `breaks` are those
of empty lines behind it. -/
def blockLines? (literal : Bool) (indent : Nat) :
    Nat → (text leading breaks : List Char) → (indented : Bool) → Cursor →
      Option (List Char × List Char × List Char × Cursor)
  | 0, _, _, _, _, _ => none
  | n + 1, text, leading, breaks, indented, c =>
    if c.column ≠ indent ∨ c.rest.isEmpty then some (text, leading, breaks, c)
    else do
      let blank := c.peek.any isSpace
      let joins := !literal && leading == ['\n'] && !indented && !blank
      let between := if joins then (if breaks.isEmpty then [' '] else []) else leading
      let (line, c) := c.span (!isBreak ·)
      let leading := c.rest.take 1
      let (_, more, c) ← blockBreaks? (some indent) (n + 1) 0 [] c.advance
      blockLines? literal indent n (text ++ between ++ breaks ++ line) leading more blank c

/-- Reads a block scalar from its indicator on, inside a block indented to `parent`. -/
def block? (literal : Bool) (parent : Int) (c : Cursor) : Option (String × Cursor) := do
  let (chomp, increment, c) := blockHeader c.advance
  let c ← c.endOfLine?
  let given := increment.map fun k => (max parent 0).toNat + k
  let (deepest, breaks, c) ← blockBreaks? given (c.rest.length + 1) 0 [] c
  let indent := given.getD (max deepest (max (parent + 1).toNat 1))
  let (text, leading, breaks, c) ← blockLines? literal indent (c.rest.length + 1) [] [] breaks false c
  let tail := match chomp with
    | .strip => []
    | .clip => leading
    | .keep => leading ++ breaks
  return (String.ofList (text ++ tail), c)

end RailBus.Yaml
