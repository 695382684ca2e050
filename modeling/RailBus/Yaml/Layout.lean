import RailBus.Yaml.Scalar
import RailBus.Yaml.Token

/-!
# From text to tokens

Indentation opens and closes block collections, and a colon makes what stands before it on the
line a key. A place where a key could begin is remembered until the colon comes or cannot come
any more.
-/

namespace RailBus.Yaml

/-- A place where a key could begin. -/
structure Candidate where
  /-- nothing but a key may stand there -/
  required : Bool
  /-- how many tokens come before it -/
  position : Nat
  start : Cursor

structure Layout where
  cursor : Cursor
  tokens : List Token := []
  /-- the column of the innermost block collection, -1 outside all -/
  indent : Int := -1
  outer : List Int := []
  keyAllowed : Bool := true
  /-- a candidate for the block context and for each open flow collection, innermost first -/
  candidates : List (Option Candidate) := [none]

namespace Layout

def inFlow (l : Layout) : Bool := l.candidates.length > 1

def emit (l : Layout) (t : Token) : Layout := { l with tokens := l.tokens ++ [t] }

def emitAt (l : Layout) (position : Nat) (ts : List Token) : Layout :=
  { l with tokens := l.tokens.take position ++ ts ++ l.tokens.drop position }

/-! ## Candidates -/

/-- Gives up the innermost candidate, which may not be a required one. -/
def dropCandidate? (l : Layout) : Option Layout :=
  match l.candidates with
  | some k :: rest => if k.required then none else some { l with candidates := none :: rest }
  | _ => some l

/-- Remembers that a key may begin here. -/
def saveCandidate? (l : Layout) : Option Layout :=
  if l.keyAllowed then
    l.dropCandidate?.map fun l =>
      let k : Candidate :=
        { required := !l.inFlow && l.indent == l.cursor.column
          position := l.tokens.length
          start := l.cursor }
      { l with candidates := some k :: l.candidates.tail }
  else some l

/-- A key stands on one line and its start is not further away than so many bytes. -/
def keyReach : Nat := 1024

def expired (l : Layout) (k : Candidate) : Bool :=
  k.start.line < l.cursor.line || k.start.index + keyReach < l.cursor.index

def expireCandidates? (l : Layout) : Option Layout :=
  let expired := l.candidates.map fun k => k.filter l.expired
  if expired.any fun k => k.any (·.required) then none
  else some { l with candidates := l.candidates.map fun k => k.filter (!l.expired ·) }

/-! ## Indentation -/

/-- Opens a block collection at `column` if that is deeper than the one at hand. -/
def roll (l : Layout) (column : Nat) : Layout × Bool :=
  if !l.inFlow && l.indent < column then
    ({ l with indent := column, outer := l.indent :: l.outer }, true)
  else (l, false)

/-- Closes the block collections that are deeper than `column`. -/
def unrollFrom (tokens : List Token) (indent : Int) (column : Int) :
    List Int → List Token × Int × List Int
  | [] => (tokens, indent, [])
  | i :: outer =>
    if indent > column then unrollFrom (tokens ++ [.blockEnd]) i column outer
    else (tokens, indent, i :: outer)

def unroll (l : Layout) (column : Int) : Layout :=
  if l.inFlow then l
  else
    let (tokens, indent, outer) := unrollFrom l.tokens l.indent column l.outer
    { l with tokens := tokens, indent := indent, outer := outer }

/-! ## Single tokens -/

def skip (l : Layout) (n : Nat) : Layout := { l with cursor := l.cursor.skip n }

def allowKey (l : Layout) (allowed : Bool) : Layout := { l with keyAllowed := allowed }

/-- A token of a single character in front of which no key can be pending. -/
def indicator? (l : Layout) (t : Token) (keyAllowed : Bool) : Option Layout :=
  l.dropCandidate?.map fun l => ((l.emit t).skip 1).allowKey keyAllowed

def openFlow? (l : Layout) (t : Token) : Option Layout :=
  l.saveCandidate?.map fun l =>
    (({ l with candidates := none :: l.candidates }.emit t).skip 1).allowKey true

def closeFlow? (l : Layout) (t : Token) : Option Layout :=
  l.dropCandidate?.map fun l =>
    let candidates := if l.inFlow then l.candidates.tail else l.candidates
    (({ l with candidates := candidates }.emit t).skip 1).allowKey false

/-- `-` or `?` in the block context opens a collection where it is the first at its column. -/
def blockIndicator? (l : Layout) (start t : Token) (keyAllowed : Bool) : Option Layout :=
  if l.inFlow then l.indicator? t keyAllowed
  else if l.keyAllowed then
    let (l, opened) := l.roll l.cursor.column
    (if opened then l.emit start else l).indicator? t keyAllowed
  else none

def value? (l : Layout) : Option Layout :=
  match l.candidates with
  | some k :: rest =>
    let (l, opened) := l.roll k.start.column
    let l := l.emitAt k.position ((if opened then [.blockMappingStart] else []) ++ [.key])
    some ((({ l with candidates := none :: rest }).emit .value).skip 1 |>.allowKey false)
  | _ =>
    if l.inFlow then some (((l.emit .value).skip 1).allowKey false)
    else if l.keyAllowed then
      let (l, opened) := l.roll l.cursor.column
      some ((((if opened then l.emit .blockMappingStart else l).emit .value).skip 1).allowKey true)
    else none

/-- Leaves all block collections, as the end of a document does. -/
def leaveBlocks? (l : Layout) : Option Layout :=
  (l.unroll (-1)).dropCandidate?.map (·.allowKey false)

def marker? (l : Layout) (t : Token) : Option Layout :=
  l.leaveBlocks?.map fun l => (l.emit t).skip 3

/-- A name after `&` or `*`. -/
def name? (l : Layout) (t : String → Token) : Option Layout := do
  let l ← l.saveCandidate?
  let (name, cursor) := l.cursor.advance.span isWordChar
  let ends := cursor.gapAfter 0 || cursor.peek.any (· ∈ ['?', ':', ',', ']', '}', '%', '@', '\x60'])
  if name.isEmpty || !ends then none
  else some (({ l with cursor := cursor }.emit (t (String.ofList name))).allowKey false)

/-! ## Tags and directives -/

def isTagChar (verbatim : Bool) (c : Char) : Bool :=
  isWordChar c || c ∈ [';', '/', '?', ':', '@', '&', '=', '+', '$', '.', '%', '!', '~', '*', '\'',
    '(', ')'] || (verbatim && c ∈ [',', '[', ']'])

/-- How many bytes the UTF-8 form of a character takes that begins with `b`. -/
def sequenceLength? (b : UInt8) : Option Nat :=
  if b &&& 0x80 = 0 then some 1
  else if b &&& 0xE0 = 0xC0 then some 2
  else if b &&& 0xF0 = 0xE0 then some 3
  else if b &&& 0xF8 = 0xF0 then some 4
  else none

/-- Decodes the percent escapes of a tag. Those of one character stand together, `more` of them
still to come, and their bytes have the form of UTF-8, whether or not they make up a character. -/
def tagBytes? (more : Nat) : List Char → Option Bytes
  | [] => if more = 0 then some [] else none
  | '%' :: high :: low :: rest => do
    let b := UInt8.ofNat (← Text.digits? 16 0 [high, low])
    let more ← if more = 0 then (sequenceLength? b).map (· - 1)
      else if b &&& 0xC0 = 0x80 then some (more - 1)
      else none
    return b :: (← tagBytes? more rest)
  | '%' :: _ => none
  | c :: rest =>
    if more = 0 then (tagBytes? 0 rest).map ((String.singleton c).toUTF8.toList ++ ·) else none

/-- A tag ends at a zero byte. -/
def tagText? (cs : List Char) : Option Bytes := (tagBytes? 0 cs).map (·.takeWhile (· != 0))

/-- `!`, `!!` or `!name!`, and the length of it. -/
def handle (cs : List Char) : List Char :=
  match cs with
  | '!' :: rest =>
    let name := rest.takeWhile isWordChar
    '!' :: name ++ (rest.drop name.length).takeWhile (· == '!') |>.take (name.length + 2)
  | _ => []

def tag? (l : Layout) : Option Layout := do
  let l ← l.saveCandidate?
  let c := l.cursor
  let (t, c) ← if c.startsWith "!<" then do
      let (uri, c) := (c.skip 2).span (isTagChar true)
      if uri.isEmpty || c.peek != some '>' then none
      else some (Token.tag "" (← tagText? uri), c.advance)
    else do
      let h := handle c.rest
      if h.length > 1 && h.getLast? == some '!' then
        let (uri, c) := (c.skip h.length).span (isTagChar false)
        if uri.isEmpty then none else some (Token.tag (String.ofList h) (← tagText? uri), c)
      else
        let (uri, c) := c.advance.span (isTagChar false)
        match ← tagText? uri with
        | [] => some (Token.tag "" "!".toUTF8.toList, c)
        | text => some (Token.tag "!" text, c)
  if c.gapAfter 0 || (l.inFlow && c.peek == some ',') then
    some (({ l with cursor := c }.emit t).allowKey false)
  else none

/-- At most this many digits make up a version number. -/
def versionDigits : Nat := 9

def versionNumber? (c : Cursor) : Option (Nat × Cursor) :=
  let (digits, c) := c.span Char.isDigit
  if digits.length > versionDigits then none else (Text.magnitude? 10 digits).map (·, c)

def directive? (l : Layout) : Option Layout := do
  let l ← l.leaveBlocks?
  let (name, c) := l.cursor.advance.span isWordChar
  let c' := (c.span isSpace).2
  let (t, c) ← match (if c.gapAfter 0 then String.ofList name else "") with
    | "YAML" => do
      let (major, c) ← versionNumber? c'
      if c.peek != some '.' then none
      else
        let (minor, c) ← versionNumber? c.advance
        some (Token.version major minor, c)
    | "TAG" => do
      let h := handle c'.rest
      let c := c'.skip h.length
      if h.isEmpty || !(h == ['!'] || h.getLast? == some '!') || !c.peek.any isSpace then none
      else
        let (uri, c) := (c.span isSpace).2.span (isTagChar true)
        if uri.isEmpty || !c.gapAfter 0 then none
        else some (Token.tagDirective (String.ofList h) (← tagText? uri), c)
    | _ => none
  let c ← c.endOfLine?
  return { l with cursor := c }.emit t

/-! ## All tokens -/

def plainStart (l : Layout) (x : Char) : Bool :=
  !(isGap x || x ∈ ['-', '?', ':', ',', '[', ']', '{', '}', '#', '&', '*', '!', '|', '>', '\'',
    '"', '%', '@', '\x60']) ||
  (x == '-' && !(l.cursor.rest[1]?).any isSpace) ||
  (!l.inFlow && (x == '?' || x == ':') && !l.cursor.gapAfter 1)

def scalarToken? (l : Layout) (style : Style) (scalar : String × Cursor) (keyAllowed : Bool) :
    Option Layout :=
  some (({ l with cursor := scalar.2 }.emit (.scalar scalar.1 style)).allowKey keyAllowed)

/-- Reads the token that begins with `x`. -/
def next? (l : Layout) (x : Char) : Option Layout :=
  let c := l.cursor
  if c.column = 0 ∧ x = '%' then l.directive?
  else if c.atMarker then l.marker? (if x = '-' then .documentStart else .documentEnd)
  else if x = '[' then l.openFlow? .flowSequenceStart
  else if x = '\x7b' then l.openFlow? .flowMappingStart
  else if x = ']' then l.closeFlow? .flowSequenceEnd
  else if x = '\x7d' then l.closeFlow? .flowMappingEnd
  else if x = ',' then l.indicator? .flowEntry true
  else if x = '-' ∧ c.gapAfter 1 then l.blockIndicator? .blockSequenceStart .blockEntry true
  else if x = '?' ∧ (l.inFlow ∨ c.gapAfter 1) then
    l.blockIndicator? .blockMappingStart .key !l.inFlow
  else if x = ':' ∧ (l.inFlow ∨ c.gapAfter 1) then l.value?
  else if x = '*' then l.name? .alias
  else if x = '&' then l.name? .anchor
  else if x = '!' then l.tag?
  else if (x = '|' ∨ x = '>') ∧ !l.inFlow then do
    let l ← l.dropCandidate?
    let literal := x == '|'
    l.scalarToken? (if literal then .literal else .folded) (← block? literal l.indent c) true
  else if x = '\'' ∨ x = '"' then do
    let l ← l.saveCandidate?
    l.scalarToken? .quoted (← quoted? (x == '\'') c) false
  else if l.plainStart x then do
    let l ← l.saveCandidate?
    let (text, behindBreak, c) ← plain? l.inFlow (l.indent + 1).toNat c
    l.scalarToken? .plain (text, c) behindBreak
  else none

/-- Passes white space, comments and a byte order mark at the beginning of a line. A tab separates
tokens, but does not indent a line. -/
def passGaps (l : Layout) : Nat → Layout
  | 0 => l
  | n + 1 =>
    let c := l.cursor
    let c := if c.column = 0 ∧ c.peek = some byteOrderMark then c.advance else c
    let tabs := l.inFlow || !l.keyAllowed
    let c := (c.span fun x => x == ' ' || (tabs && x == '\t')).2
    let c := if c.peek = some '#' then (c.span (!isBreak ·)).2 else c
    let l := { l with cursor := c }
    if c.peek.any isBreak then
      ({ l with cursor := c.advance, keyAllowed := l.keyAllowed || !l.inFlow }).passGaps n
    else l

/-- Reads tokens to the end of the text; fails with the line on which no token can be read. -/
def run : Nat → Layout → Except Nat (List Token)
  | 0, l => .error l.cursor.line
  | n + 1, l =>
    let l := l.passGaps (n + 1)
    match l.expireCandidates? with
    | none => .error l.cursor.line
    | some l =>
      let l := l.unroll l.cursor.column
      match l.cursor.peek with
      | none =>
        match l.leaveBlocks? with
        | none => .error l.cursor.line
        | some l => .ok l.tokens
      | some x =>
        match l.next? x with
        | none => .error l.cursor.line
        | some l => run n l

end Layout

/-- The tokens of a text, or the line that cannot be read. -/
def tokens (text : List Char) : Except Nat (List Token) :=
  Layout.run (text.length + 1) { cursor := { rest := unifyBreaks text } }

end RailBus.Yaml
