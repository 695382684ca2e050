import RailBus.CommandLine.Arguments

/-!
# Commands

The commands of the program and the arguments they take.
-/

namespace RailBus

inductive Command
  /-- one message as a packet -/
  | encode (address type : String) (seq : UInt8) (payload : Option String)
  /-- the messages in captured bytes -/
  | decode (hex file : Option String) (json : Bool)
  /-- captured bytes through the receiving end of a link -/
  | replay (hex file : Option String)
  /-- the configuration in effect -/
  | config (file : Option String)
  deriving DecidableEq, Repr

namespace Command

open CommandLine

def version : String := "0.1.0"

def versionArgument : Argument := { name := "version", letter := some 'V', kind := .version }

def programGrammar : Grammar :=
  { options := [helpArgument, versionArgument]
    subcommands := ["encode", "decode", "replay", "config", "help"] }

def fileArgument : Argument := { name := "file", letter := some 'f', kind := .path }

def hexArgument : Argument := { name := "hex", kind := .text }

def encodeGrammar : Grammar :=
  { options := [helpArgument,
      { name := "address", letter := some 'a', kind := .text },
      { name := "type", letter := some 't', kind := .text, required := true },
      { name := "seq", letter := some 's', kind := .byte },
      { name := "payload", letter := some 'p', kind := .text }] }

def decodeGrammar : Grammar :=
  { options := [helpArgument, fileArgument, { name := "json", kind := .flag }]
    positional := some hexArgument
    exclusive := ["file"] }

def replayGrammar : Grammar :=
  { options := [helpArgument, fileArgument]
    positional := some hexArgument
    exclusive := ["file"] }

def configGrammar : Grammar := { options := [helpArgument, fileArgument] }

/-- Help on a command, which itself has no subcommands. -/
def help : List String → Except UsageError Command
  | [] => .error .displayHelp
  | [name] =>
    if programGrammar.subcommands.contains name then .error .displayHelp
    else .error .invalidSubcommand
  | _ => .error .invalidSubcommand

/-- The values that a command without subcommands finds in its arguments. -/
def matchesOf (g : Grammar) (args : List String) : Except UsageError Matches :=
  match g.read args with
  | .error e => .error e
  | .ok (.own found) => .ok found
  | .ok (.subcommand _ _) => .error .invalidSubcommand

def sequenceNumber (found : Matches) : UInt8 :=
  match (found.lookup "seq").bind fun value => Text.integer? value.toList with
  | some n => UInt8.ofNat n.toNat
  | none => 1

def ofSubcommand (name : String) (args : List String) : Except UsageError Command :=
  match name with
  | "encode" => (matchesOf encodeGrammar args).map fun found =>
    .encode ((found.lookup "address").getD "0") ((found.lookup "type").getD "")
      (sequenceNumber found) (found.lookup "payload")
  | "decode" => (matchesOf decodeGrammar args).map fun found =>
    .decode (found.lookup "hex") (found.lookup "file") (found.lookup "json").isSome
  | "replay" => (matchesOf replayGrammar args).map fun found =>
    .replay (found.lookup "hex") (found.lookup "file")
  | "config" => (matchesOf configGrammar args).map fun found => .config (found.lookup "file")
  | _ => help args

/-- Reads the arguments that follow the program's name. -/
def ofArguments (args : List String) : Except UsageError Command :=
  match programGrammar.read args with
  | .error e => .error e
  | .ok (.own _) => .error .helpForMissing
  | .ok (.subcommand name rest) => ofSubcommand name rest

end Command
end RailBus
