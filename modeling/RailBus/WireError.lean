/-!
# Errors of the wire format

What can be wrong with bytes from the line, or with a message that is to be put on it. Each error
is a cause; its wording is in `message`.
-/

namespace RailBus

abbrev Bytes := List UInt8

/-- A byte in hexadecimal, `0x` first. -/
def hexByte (b : UInt8) : String :=
  let digits := "0123456789abcdef".toList
  String.ofList ['0', 'x', digits.getD (b.toNat / 16) '0', digits.getD (b.toNat % 16) '0']

def listText (bs : Bytes) : String :=
  "[" ++ ", ".intercalate (bs.map fun b => toString b.toNat) ++ "]"

inductive AddressError
  | tooDeep (depth : Nat)
  | zeroComponent (components : Bytes)
  | afterTerminator (stack : Bytes)
  | noTerminator
  | unreadable (text : String)
  deriving DecidableEq, Repr

namespace AddressError

def reason : AddressError → String
  | tooDeep depth => s!"{depth} components (max 4)"
  | zeroComponent components => "zero component in " ++ listText components
  | afterTerminator stack => "non-zero component after terminator in " ++ listText stack
  | noTerminator => "no terminator within 5 bytes"
  | unreadable text => text

def message (e : AddressError) : String := "invalid node address: " ++ e.reason

end AddressError

inductive WireError
  | invalidAddress (cause : AddressError)
  | messageTooLarge (size max : Nat)
  | badEscape
  | crcMismatch (expected actual : UInt8)
  | truncated (needed available : Nat)
  | invalidLength (length : UInt8)
  | overflow (max : Nat)
  deriving DecidableEq, Repr

namespace WireError

def message : WireError → String
  | invalidAddress cause => cause.message
  | messageTooLarge size max => s!"message too large: length byte would be {size} (max {max})"
  | badEscape => "escape byte not followed by an escaped value"
  | crcMismatch expected actual =>
    "CRC mismatch: expected " ++ hexByte expected ++ ", got " ++ hexByte actual
  | truncated needed available =>
    s!"truncated message: need {needed} bytes, {available} available"
  | invalidLength length => s!"invalid message length byte: {length.toNat}"
  | overflow max => s!"packet body overflow: more than {max} bytes without a closing magic"

/-- Damage on the line, as against a message that cannot be sent. -/
def isFraming : WireError → Bool
  | invalidAddress _ | messageTooLarge _ _ => false
  | badEscape | crcMismatch _ _ | truncated _ _ | invalidLength _ | overflow _ => true

end WireError
end RailBus
