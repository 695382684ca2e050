import RailBus.WireError

/-!
# Tokens of a YAML text

Layout is explicit: block collections have tokens where they begin and end, and a key has one in
front of it.
-/

namespace RailBus.Yaml

inductive Style
  | plain
  | quoted
  | literal
  | folded
  deriving DecidableEq, Repr

inductive Token
  | version (major minor : Nat)
  | tagDirective (handle : String) (expansion : Bytes)
  | documentStart
  | documentEnd
  | blockSequenceStart
  | blockMappingStart
  | blockEnd
  | flowSequenceStart
  | flowSequenceEnd
  | flowMappingStart
  | flowMappingEnd
  | blockEntry
  | flowEntry
  | key
  | value
  | alias (name : String)
  | anchor (name : String)
  | tag (handle : String) (suffix : Bytes)
  | scalar (text : String) (style : Style)
  deriving DecidableEq, Repr

end RailBus.Yaml
