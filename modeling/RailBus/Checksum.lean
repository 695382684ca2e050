import RailBus.Stuffing

/-!
# Packet checksum

CRC-8 with polynomial `x^8 + x^5 + x^4 + 1`, least significant bit first, starting from zero
and with nothing added at the end. It is written bit by bit: each step is linear.
-/

namespace RailBus

namespace Checksum

/-- The polynomial without its leading term, bits reversed. -/
def polynomial : UInt8 := 0x8C

/-- Moves the register on by one bit. -/
def shift (r : UInt8) : UInt8 :=
  if r &&& 1 = 1 then (r >>> 1) ^^^ polynomial else r >>> 1

def shiftByte (r : UInt8) : UInt8 :=
  shift (shift (shift (shift (shift (shift (shift (shift r)))))))

def absorb (r b : UInt8) : UInt8 := shiftByte (r ^^^ b)

end Checksum

def crc8 (bs : Bytes) : UInt8 := bs.foldl Checksum.absorb 0

/-- A checksum over bytes that arrive in pieces. -/
structure Checksum where
  register : UInt8 := 0
  deriving DecidableEq

namespace Checksum

def update (c : Checksum) (bs : Bytes) : Checksum := ⟨bs.foldl absorb c.register⟩

/-- The checksum so far, and a register that starts anew. -/
def take (c : Checksum) : UInt8 × Checksum := (c.register, {})

/-- The register is not shown. -/
def text (_ : Checksum) : String := "Crc8 \x7b .. \x7d"

end Checksum
end RailBus
