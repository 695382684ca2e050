import RailBus.Yaml.Layout

/-!
# From tokens to nodes

A text holds one document, a tree of scalars, sequences and mappings. An alias stands for the node
that carried its anchor, which may be the very collection the alias is in; so it is kept as a
number, and the document lists the numbered nodes.
-/

namespace RailBus.Yaml

inductive Node
  | scalar (text : String) (style : Style) (tag : Option Bytes)
  | sequence (items : List Node)
  | mapping (entries : List (Node × Node))
  | alias (number : Nat)

namespace Node

def empty : Node := .scalar "" .plain none

end Node

structure Document where
  root : Node
  anchors : List (Nat × Node) := []

inductive Error
  | unprintable
  | token (line : Nat)
  | misplaced
  | secondDocument
  deriving DecidableEq, Repr

def Error.message : Error → String
  | unprintable => "control characters are not allowed"
  | token line => s!"unexpected character on line {line + 1}"
  | misplaced => "unexpected token"
  | secondDocument => "more than one document"

/-! ## Reading nodes -/

structure NodeReader where
  tokens : List Token
  /-- what tag handles expand to -/
  handles : List (String × Bytes) := []
  /-- the latest number of each anchor name -/
  names : List (String × Nat) := []
  anchors : List (Nat × Node) := []
  count : Nat := 0

namespace NodeReader

abbrev Read := StateT NodeReader Option

def fail {α : Type} : Read α := fun _ => none

def peek : Read (Option Token) := fun s => some (s.tokens.head?, s)

def skip : Read Unit := fun s => some ((), { s with tokens := s.tokens.tail })

/-- Passes `t` if it comes next. -/
def accept (t : Token) : Read Bool := do
  if (← peek) = some t then
    skip
    return true
  else return false

def expect (t : Token) : Read Unit := do
  if !(← accept t) then fail

/-- Whether the next token is one of `ts`. -/
def ahead (ts : List Token) : Read Bool := do return (← peek).any (· ∈ ts)

structure Properties where
  anchor : Option Nat := none
  tag : Option Bytes := none

/-- Gives an anchor its number. -/
def declareAnchor (name : String) : Read Nat := fun s =>
  some (s.count, { s with names := (name, s.count) :: s.names, count := s.count + 1 })

def resolveTag (handle : String) (suffix : Bytes) : Read Bytes := fun s =>
  if handle.isEmpty then some (suffix, s)
  else (s.handles.lookup handle).map fun expansion => (expansion ++ suffix, s)

/-- An anchor and a tag, each at most once, in either order. -/
def properties : Read Properties := do
  match ← peek with
  | some (.anchor name) =>
    skip
    let number ← declareAnchor name
    match ← peek with
    | some (.tag handle suffix) =>
      skip
      return { anchor := some number, tag := some (← resolveTag handle suffix) }
    | _ => return { anchor := some number }
  | some (.tag handle suffix) =>
    skip
    match ← peek with
    | some (.anchor name) =>
      skip
      let number ← declareAnchor name
      return { anchor := some number, tag := some (← resolveTag handle suffix) }
    | _ => return { tag := some (← resolveTag handle suffix) }
  | _ => return {}

def attach (number : Option Nat) (n : Node) : Read Node := fun s =>
  match number with
  | none => some (n, s)
  | some k => some (n, { s with anchors := (k, n) :: s.anchors })

def aliased (name : String) : Read Node := fun s =>
  (s.names.lookup name).map fun k => (.alias k, s)

mutual

/-- Reads a node. `block` allows block collections, `indentless` a block sequence at the column of
the mapping it is in. -/
def node (fuel : Nat) (block indentless : Bool) : Read Node :=
  match fuel with
  | 0 => fail
  | fuel + 1 => do
    match ← peek with
    | some (.alias name) =>
      skip
      aliased name
    | _ =>
      let p ← properties
      let n ← match ← peek with
        | some .blockEntry =>
          if indentless then Node.sequence <$> indentlessItems fuel
          else if p.anchor.isSome || p.tag.isSome then pure (Node.scalar "" .plain p.tag)
          else fail
        | some (.scalar text style) =>
          skip
          pure (Node.scalar text style p.tag)
        | some .flowSequenceStart =>
          skip
          Node.sequence <$> flowItems fuel true
        | some .flowMappingStart =>
          skip
          Node.mapping <$> flowEntries fuel true
        | t =>
          if block && t = some .blockSequenceStart then
            skip
            Node.sequence <$> blockItems fuel
          else if block && t = some .blockMappingStart then
            skip
            Node.mapping <$> blockEntries fuel
          else if p.anchor.isSome || p.tag.isSome then pure (Node.scalar "" .plain p.tag)
          else fail
      attach p.anchor n

/-- A node, or the empty scalar before one of `ends`. -/
def nodeUnless (fuel : Nat) (ends : List Token) (block indentless : Bool) : Read Node :=
  match fuel with
  | 0 => fail
  | fuel + 1 => do
    if ← ahead ends then return .empty
    else node fuel block indentless

def blockItems (fuel : Nat) : Read (List Node) :=
  match fuel with
  | 0 => fail
  | fuel + 1 => do
    if ← accept .blockEnd then return []
    else
      expect .blockEntry
      let n ← nodeUnless fuel [.blockEntry, .blockEnd] true false
      return n :: (← blockItems fuel)

def indentlessItems (fuel : Nat) : Read (List Node) :=
  match fuel with
  | 0 => fail
  | fuel + 1 => do
    if ← accept .blockEntry then
      let n ← nodeUnless fuel [.blockEntry, .key, .value, .blockEnd] true false
      return n :: (← indentlessItems fuel)
    else return []

def blockEntries (fuel : Nat) : Read (List (Node × Node)) :=
  match fuel with
  | 0 => fail
  | fuel + 1 => do
    if ← accept .blockEnd then return []
    else
      expect .key
      let ends := [Token.key, .value, .blockEnd]
      let k ← nodeUnless fuel ends true true
      let v ← if ← accept .value then nodeUnless fuel ends true true else pure .empty
      return (k, v) :: (← blockEntries fuel)

/-- Items of a flow sequence; a key makes an item a mapping of one entry. -/
def flowItems (fuel : Nat) (first : Bool) : Read (List Node) :=
  match fuel with
  | 0 => fail
  | fuel + 1 => do
    if ← accept .flowSequenceEnd then return []
    else
      if !first then expect .flowEntry
      if ← accept .flowSequenceEnd then return []
      else
        let n ← if ← accept .key then singleEntry fuel else node fuel false false
        return n :: (← flowItems fuel false)

/-- An entry of a flow sequence behind its key mark. Without a key, the token that stands in its
place is passed as well. -/
def singleEntry (fuel : Nat) : Read Node :=
  match fuel with
  | 0 => fail
  | fuel + 1 => do
    let k ← if ← ahead [.value, .flowEntry, .flowSequenceEnd] then
        skip
        pure Node.empty
      else node fuel false false
    let v ← if ← accept .value then nodeUnless fuel [.flowEntry, .flowSequenceEnd] false false
      else pure .empty
    return .mapping [(k, v)]

def flowEntries (fuel : Nat) (first : Bool) : Read (List (Node × Node)) :=
  match fuel with
  | 0 => fail
  | fuel + 1 => do
    if ← accept .flowMappingEnd then return []
    else
      if !first then expect .flowEntry
      if ← accept .flowMappingEnd then return []
      else
        let entry ← if ← accept .key then do
            let k ← nodeUnless fuel [.value, .flowEntry, .flowMappingEnd] false false
            let v ← if ← accept .value then nodeUnless fuel [.flowEntry, .flowMappingEnd] false false
              else pure .empty
            pure (k, v)
          else do
            let k ← node fuel false false
            pure (k, .empty)
        return entry :: (← flowEntries fuel false)

end

/-! ## Reading a document -/

def standardHandles : List (String × Bytes) :=
  [("!", "!".toUTF8.toList), ("!!", "tag:yaml.org,2002:".toUTF8.toList)]

/-- The directives of a document: one version at most, 1.1 or 1.2, and each handle once. -/
def directives (versioned : Bool) (handles : List (String × Bytes)) :
    List Token → Option (Bool × List (String × Bytes) × List Token)
  | .version major minor :: rest =>
    if versioned || major ≠ 1 || !(minor ∈ [1, 2]) then none else directives true handles rest
  | .tagDirective handle expansion :: rest =>
    if (handles.lookup handle).isSome then none
    else directives versioned ((handle, expansion) :: handles) rest
  | ts => some (versioned || !handles.isEmpty, handles, ts)

/-- Passes the tokens that begin a document. Directives, and any document but the first, need an
explicit start. -/
def start? (tokens : List Token) : Option NodeReader := do
  let (directed, handles, tokens) ← directives false [] tokens
  let handles := handles ++ standardHandles.filter fun (h, _) => (handles.lookup h).isNone
  match tokens with
  | .documentStart :: rest => return { tokens := rest, handles := handles }
  | _ => if directed then none else return { tokens := tokens, handles := handles }

/-- The root of a document; it may be missing behind an explicit start. -/
def root (explicit : Bool) : Read Node := fun s =>
  let missing := match s.tokens with
    | [] => true
    | t :: _ => t ∈ [.documentStart, .documentEnd] || t matches .version _ _ | .tagDirective _ _
  if explicit && missing then some (.empty, s) else node (4 * s.tokens.length + 4) true false s

end NodeReader

/-- What may follow the only document of a text: ends of a document, and nothing else. -/
def closes (tokens : List Token) : Bool := tokens.all (· == .documentEnd)

def documentOfTokens (tokens : List Token) : Except Error (Option Document) :=
  if tokens.isEmpty then .ok none
  else
    match NodeReader.start? tokens with
    | none => .error .misplaced
    | some reader =>
      match NodeReader.root (reader.tokens.length < tokens.length) reader with
      | none => .error .misplaced
      | some (root, reader) =>
        if closes reader.tokens then .ok (some { root := root, anchors := reader.anchors })
        else .error .secondDocument

/-- Reads a text. A text without any document gives `none`. -/
def document (text : String) : Except Error (Option Document) :=
  if !text.toList.all isPrintable then .error .unprintable
  else
    match tokens text.toList with
    | .error line => .error (.token line)
    | .ok ts => documentOfTokens ts

end RailBus.Yaml
