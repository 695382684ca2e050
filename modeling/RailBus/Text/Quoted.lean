import RailBus.Text.Hidden

/-!
# Quoted text

Characters and strings between quotes, with escapes for what would not show.
-/

namespace RailBus.Text

/-- Lower-case hexadecimal digits, at least one. -/
def hexDigits (n : Nat) : List Char := Nat.toDigits 16 n

/-- Writes one character inside `quote`s. -/
def quoteChar (quote : Char) (c : Char) : List Char :=
  if c = '\x00' then ['\\', '0']
  else if c = '\t' then ['\\', 't']
  else if c = '\r' then ['\\', 'r']
  else if c = '\n' then ['\\', 'n']
  else if c = '\\' ∨ c = quote then ['\\', c]
  else if isHidden c || isExtending c then
    ['\\', 'u', '\x7b'] ++ hexDigits c.toNat ++ ['\x7d']
  else [c]

def quotedChar (c : Char) : String := String.ofList ('\'' :: quoteChar '\'' c ++ ['\''])

def quoted (s : String) : String := String.ofList ('"' :: s.toList.flatMap (quoteChar '"') ++ ['"'])

end RailBus.Text
