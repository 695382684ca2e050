import RailBus.Address
import RailBus.Text.Blank
import RailBus.Text.Numeral

/-!
# Addresses as text

Components in decimal with dots between them; the interface is `0`. Reading allows white space
around the text and around each component, a plus before it, and leading zeros.
-/

namespace RailBus.Address

def chars (a : Address) : List Char :=
  if a.isRoot then ['0'] else ['.'].intercalate (a.components.map fun c => Nat.toDigits 10 c.toNat)

def text (a : Address) : String := String.ofList a.chars

def debugText (a : Address) : String := "NodeAddress(" ++ a.text ++ ")"

def ofChars (cs : List Char) : Except AddressError Address :=
  let body := Text.trim cs
  if body = [] ∨ body = ['0'] then .ok root
  else
    match (Text.splitOn '.' body).mapM fun part => Text.byte? 10 (Text.trim part) with
    | some components => ofComponents components
    | none => .error (.unreadable (String.ofList body))

def parse (s : String) : Except AddressError Address := ofChars s.toList

end RailBus.Address
