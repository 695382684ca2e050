import RailBus.Yaml.Node

/-!
# Values in a YAML document

What a node says where a number, a truth value or a record is wanted. Only plain scalars have
values other than text, and literal ones whose tag names the type.
-/

namespace RailBus.Yaml

inductive ValueError
  | wrongKind (expected : String)
  | repeatedField (name : String)
  deriving DecidableEq, Repr

def ValueError.message : ValueError → String
  | wrongKind expected => "expected " ++ expected
  | repeatedField name => s!"duplicate field \x60{name}\x60"

namespace Document

/-- Follows an alias. -/
def resolve (d : Document) : Node → Node
  | .alias number => (d.anchors.lookup number).getD .empty
  | n => n

/-- The text of a scalar that may have a value of the type that `typeTag` names. -/
def valueText? (d : Document) (typeTag : String) (n : Node) : Option String :=
  match d.resolve n with
  | .scalar text .plain _ => some text
  | .scalar text .literal (some tag) => if tag = typeTag.toUTF8.toList then some text else none
  | _ => none

/-- The digits of a whole number, in the radix that their first characters name. A decimal number
does not begin with a zero. -/
def naturalChars? : List Char → Option Nat
  | '0' :: 'x' :: digits => Text.magnitude? 16 digits
  | '0' :: 'o' :: digits => Text.magnitude? 8 digits
  | '0' :: 'b' :: digits => Text.magnitude? 2 digits
  | '0' :: _ :: _ => none
  | digits => Text.magnitude? 10 digits

def natural (bound : Nat) (d : Document) (n : Node) : Except ValueError Nat :=
  let value := (d.valueText? "tag:yaml.org,2002:int" n).bind fun text =>
    match text.toList with
    | '+' :: digits => naturalChars? digits
    | digits => naturalChars? digits
  match value.filter (· < bound) with
  | some k => .ok k
  | none => .error (.wrongKind s!"a number below {bound}")

def boolean (d : Document) (n : Node) : Except ValueError Bool :=
  match d.valueText? "tag:yaml.org,2002:bool" n with
  | some text =>
    if text ∈ ["true", "True", "TRUE"] then .ok true
    else if text ∈ ["false", "False", "FALSE"] then .ok false
    else .error (.wrongKind "a boolean")
  | none => .error (.wrongKind "a boolean")

/-- The entries of a mapping whose keys are among `names`, each at most once; others are passed
over. Nothing at all stands for a mapping without entries. -/
def fields (names : List String) (d : Document) (n : Node) :
    Except ValueError (List (String × Node)) :=
  match d.resolve n with
  | .mapping entries => go [] entries
  | .scalar "" .plain _ => .ok []
  | _ => .error (.wrongKind "a mapping")
where
  go (found : List (String × Node)) : List (Node × Node) → Except ValueError (List (String × Node))
    | [] => .ok found
    | (k, v) :: rest =>
      match d.resolve k with
      | .scalar key _ _ =>
        if key ∈ names then
          if (found.lookup key).isSome then .error (.repeatedField key)
          else go ((key, v) :: found) rest
        else go found rest
      | _ => .error (.wrongKind "a field name")

/-- The value of a field, or `fallback` where the field is missing. -/
def field {α : Type} (found : List (String × Node)) (name : String) (fallback : α)
    (read : Node → Except ValueError α) : Except ValueError α :=
  match found.lookup name with
  | none => .ok fallback
  | some n => read n

end Document
end RailBus.Yaml
