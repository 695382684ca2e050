import RailBus.Text.Numeral

/-!
# Command-line arguments

Reading arguments by a description of what a command takes. Options have a long name and perhaps a
letter; their value stands in the same argument or in the next one, and is checked when the
argument after it is looked at. `--` ends the options.
-/

namespace RailBus.CommandLine

inductive UsageError
  | displayHelp
  | displayVersion
  | helpForMissing
  | unknownArgument
  | invalidSubcommand
  | argumentConflict
  | missingRequired
  | invalidValue
  | valueValidation
  | tooManyValues
  deriving DecidableEq, Repr

def UsageError.name : UsageError → String
  | displayHelp => "DisplayHelp"
  | displayVersion => "DisplayVersion"
  | helpForMissing => "DisplayHelpOnMissingArgumentOrSubcommand"
  | unknownArgument => "UnknownArgument"
  | invalidSubcommand => "InvalidSubcommand"
  | argumentConflict => "ArgumentConflict"
  | missingRequired => "MissingRequiredArgument"
  | invalidValue => "InvalidValue"
  | valueValidation => "ValueValidation"
  | tooManyValues => "TooManyValues"

inductive Kind
  | help
  | version
  | flag
  | text
  | path
  | byte
  deriving DecidableEq, Repr

namespace Kind

def takesValue : Kind → Bool
  | help | version | flag => false
  | text | path | byte => true

/-- A path is not empty, and a byte is a whole number in range. -/
def check (k : Kind) (value : String) : Except UsageError Unit :=
  match k with
  | path => if value.isEmpty then .error .invalidValue else .ok ()
  | byte =>
    match Text.integer? value.toList with
    | none => .error .valueValidation
    | some n => if 0 ≤ n ∧ n < 256 then .ok () else .error .valueValidation
  | _ => .ok ()

end Kind

structure Argument where
  name : String
  letter : Option Char := none
  kind : Kind
  required : Bool := false
  deriving DecidableEq

def helpArgument : Argument := { name := "help", letter := some 'h', kind := .help }

/-- What a command takes: options, at most one positional argument, and perhaps subcommands. -/
structure Grammar where
  options : List Argument
  positional : Option Argument := none
  /-- options that exclude the positional argument -/
  exclusive : List String := []
  subcommands : List String := []

/-- The values given, latest first. -/
abbrev Matches := List (String × String)

structure Reader where
  found : Matches := []
  /-- an argument whose value is not yet checked, or not yet there -/
  pending : Option (Argument × Option String) := none
  trailing : Bool := false
  positionals : Nat := 0

namespace Reader

/-- Checks an argument and enters it; none may be given twice. -/
def enter (r : Reader) (a : Argument) (value : String) : Except UsageError Reader :=
  if (r.found.lookup a.name).isSome then .error .argumentConflict
  else (a.kind.check value).map fun _ => { r with found := (a.name, value) :: r.found }

/-- Settles what is pending. -/
def settle (r : Reader) : Except UsageError Reader :=
  match r.pending with
  | none => .ok r
  | some (_, none) => .error .invalidValue
  | some (a, some value) => { r with pending := none }.enter a value

/-- An option that takes no value. -/
def switch (r : Reader) (a : Argument) : Except UsageError Reader := do
  let r ← r.settle
  match a.kind with
  | .help => .error .displayHelp
  | .version => .error .displayVersion
  | _ => r.enter a "true"

/-- An option with its value, or one whose value is to follow. -/
def valued (r : Reader) (a : Argument) (value : Option String) : Except UsageError Reader := do
  let r ← r.settle
  match value with
  | some v => r.enter a v
  | none => .ok { r with pending := some (a, none) }

def long (r : Reader) (s : Grammar) (body : List Char) : Except UsageError Reader :=
  let name := String.ofList (body.takeWhile (· != '='))
  let value := match body.dropWhile (· != '=') with
    | [] => none
    | _ :: rest => some (String.ofList rest)
  match s.options.find? (·.name == name) with
  | none => .error .unknownArgument
  | some a =>
    if a.kind.takesValue then r.valued a value
    else if value.isSome then .error .tooManyValues
    else r.switch a

/-- Options by letter, several in one argument; the rest after one that takes a value is it. -/
def letters (r : Reader) (s : Grammar) : List Char → Except UsageError Reader
  | [] => .ok r
  | c :: rest =>
    match s.options.find? (·.letter == some c) with
    | none => .error .unknownArgument
    | some a =>
      if a.kind.takesValue then
        match rest with
        | [] => r.valued a none
        | '=' :: value => r.valued a (some (String.ofList value))
        | value => r.valued a (some (String.ofList value))
      else do
        let r ← r.switch a
        letters r s rest

def awaitsValue (r : Reader) : Bool := r.pending.any (·.2.isNone)

def positional (r : Reader) (s : Grammar) (arg : String) : Except UsageError Reader :=
  match s.positional with
  | some a =>
    if r.positionals = 0 then
      r.settle.map fun r => { r with pending := some (a, some arg), positionals := 1 }
    else .error .unknownArgument
  | none =>
    if s.subcommands.isEmpty then .error .unknownArgument
    else if r.trailing && s.subcommands.contains arg then .error .unknownArgument
    else .error .invalidSubcommand

/-- Takes one argument that is not a subcommand. -/
def read (r : Reader) (s : Grammar) (arg : String) : Except UsageError Reader :=
  if r.trailing then r.positional s arg
  else
    match arg.toList with
    | ['-', '-'] => .ok { r with trailing := true }
    | '-' :: '-' :: body => r.long s body
    | '-' :: c :: body => r.letters s (c :: body)
    | _ =>
      match r.pending with
      | some (a, none) => .ok { r with pending := some (a, some arg) }
      | _ => r.positional s arg

/-- Checks what was found as a whole. -/
def finish (r : Reader) (s : Grammar) : Except UsageError Matches := do
  let r ← r.settle
  let given (name : String) := (r.found.lookup name).isSome
  if s.positional.any (fun a => given a.name) && s.exclusive.any given then
    .error .argumentConflict
  else if s.options.any fun a => a.required && !given a.name then .error .missingRequired
  else .ok r.found

end Reader

/-- What came of reading the arguments of a command: its own, or a subcommand and the rest. -/
inductive Reading
  | own (found : Matches)
  | subcommand (name : String) (rest : List String)

def Grammar.readFrom (s : Grammar) (r : Reader) : List String → Except UsageError Reading
  | [] => (r.finish s).map .own
  | arg :: rest =>
    if !r.trailing && !r.awaitsValue && s.subcommands.contains arg then .ok (.subcommand arg rest)
    else
      match r.read s arg with
      | .error e => .error e
      | .ok r => s.readFrom r rest

def Grammar.read (s : Grammar) (args : List String) : Except UsageError Reading := s.readFrom {} args

end RailBus.CommandLine
