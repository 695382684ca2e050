import RailBus.Assembler
import RailBus.Link

/-!
# The receiving end

Feeds a link from a source that at each reading has a byte or has none.
-/

namespace RailBus

structure Receiver where
  link : Link
  assembler : Assembler := {}
  /-- the noise that the link was told of -/
  noiseSeen : Nat := 0

namespace Receiver

/-- Tells the link of the noise that came since it was last told. -/
def tellNoise (r : Receiver) : Receiver :=
  if r.assembler.noise = r.noiseSeen then r
  else
    { r with
      link := { r.link with
        noiseBytes := r.link.noiseBytes + (r.assembler.noise - r.noiseSeen) }
      noiseSeen := r.assembler.noise }

/-- Takes one reading. -/
def poll (r : Receiver) (reading : Option UInt8) : Receiver :=
  let (assembler, result) := match reading with
    | none => (r.assembler, none)
    | some b => r.assembler.push b
  let link := match result with
    | none => r.link
    | some result => r.link.handlePacket result
  { r with link := link, assembler := assembler }.tellNoise

def run (r : Receiver) (readings : List (Option UInt8)) : Receiver := readings.foldl poll r

def feed (r : Receiver) (bs : Bytes) : Receiver := r.run (bs.map some)

end Receiver
end RailBus
