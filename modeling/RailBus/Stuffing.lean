import RailBus.WireError

/-!
# Byte stuffing

A packet is delimited by `magic` bytes. Inside it `magic` and `escapeMark` are written as
`escapeMark` followed by the byte with one bit flipped, so that `magic` only ever delimits.
-/

namespace RailBus

def magic : UInt8 := 0xFE
def escapeMark : UInt8 := 0xFD

/-- Flips the bit that tells a stuffed byte from the byte it stands for. -/
def escapeFlip : UInt8 := 0x20

def needsEscape (b : UInt8) : Bool := b == magic || b == escapeMark

def escape : Bytes → Bytes
  | [] => []
  | b :: rest =>
    if needsEscape b then escapeMark :: (b ^^^ escapeFlip) :: escape rest else b :: escape rest

def escapedLength : Bytes → Nat
  | [] => 0
  | b :: rest => (if needsEscape b then 2 else 1) + escapedLength rest

/-- Reads stuffed bytes. An `escapeMark` takes the byte after it, which may not be `magic`;
a `magic` elsewhere is passed through, since cutting at delimiters is the assembler's business. -/
def unescape : Bytes → Except WireError Bytes
  | [] => .ok []
  | b :: rest =>
    if b = escapeMark then
      match rest with
      | [] => .error .badEscape
      | c :: tail =>
        if c = magic then .error .badEscape else (unescape tail).map ((c ^^^ escapeFlip) :: ·)
    else (unescape rest).map (b :: ·)

end RailBus
