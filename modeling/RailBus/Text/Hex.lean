import RailBus.Text.Numeral
import RailBus.Text.Quoted
import RailBus.WireError

/-!
# Bytes as hexadecimal text

Two digits to a byte, written in lower case, read in either case.
-/

namespace RailBus.Hex

inductive Error
  | oddLength
  | badCharacter (c : Char) (position : Nat)
  deriving DecidableEq, Repr

def Error.message : Error → String
  | oddLength => "Odd number of digits"
  | badCharacter c position => "Invalid character " ++ Text.quotedChar c ++ s!" at position {position}"

def byteChars (b : UInt8) : List Char :=
  [Nat.digitChar (b.toNat / 16), Nat.digitChar (b.toNat % 16)]

def encode (bs : Bytes) : String := String.ofList (bs.flatMap byteChars)

/-- The first byte of a character's UTF-8 form, as a character. Positions are counted in bytes,
and this is the byte that a reader of bytes stumbles over. -/
def leadByte (c : Char) : Char :=
  let n := c.toNat
  if n < 0x80 then c
  else if n < 0x800 then Char.ofNat (0xC0 + n / 0x40)
  else if n < 0x10000 then Char.ofNat (0xE0 + n / 0x1000)
  else Char.ofNat (0xF0 + n / 0x40000)

/-- Reads digits pairwise; `position` counts the characters before them. -/
def decodeFrom (position : Nat) : List Char → Except Error Bytes
  | [] => .ok []
  | [c] => .error (.badCharacter (leadByte c) position)
  | c :: d :: rest =>
    match Text.digit? 16 c, Text.digit? 16 d with
    | none, _ => .error (.badCharacter (leadByte c) position)
    | some _, none => .error (.badCharacter (leadByte d) (position + 1))
    | some high, some low =>
      (decodeFrom (position + 2) rest).map (UInt8.ofNat (16 * high + low) :: ·)

def decodeChars (cs : List Char) : Except Error Bytes :=
  if cs.foldr (·.utf8Size + ·) 0 % 2 = 1 then .error .oddLength else decodeFrom 0 cs

def decode (s : String) : Except Error Bytes := decodeChars s.toList

end RailBus.Hex
