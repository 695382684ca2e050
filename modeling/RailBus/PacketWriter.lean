import RailBus.Packet
import RailBus.Transport

/-!
# The packet under construction

Messages are stuffed into one packet until it is flushed or the next message would not fit in it.
The checksum runs along, so that closing a packet does not look at its bytes again.
-/

namespace RailBus

structure PacketWriter where
  limit : Nat
  sink : Sink
  /-- the stuffed bytes so far, opening delimiter included -/
  buffer : Bytes := []
  checksum : Checksum := {}
  messages : Nat := 0
  packetsWritten : Nat := 0
  bytesWritten : Nat := 0
  writeErrors : Nat := 0
  messagesSent : Nat := 0

namespace PacketWriter

/-- Starts an empty packet. -/
def discard (w : PacketWriter) : PacketWriter :=
  { w with buffer := [], checksum := {}, messages := 0 }

/-- Records the outcome of handing over `packet`. A packet that fails is lost. -/
def handOver (w : PacketWriter) (packet : Bytes) : PacketWriter :=
  let (sink, ok) := w.sink.write packet
  if ok then
    { w with
      sink := sink
      packetsWritten := w.packetsWritten + 1
      bytesWritten := w.bytesWritten + packet.length }
  else { w with sink := sink, writeErrors := w.writeErrors + 1 }

/-- Closes the packet and hands it to the sink, if it holds any message. -/
def flush (w : PacketWriter) : PacketWriter :=
  if w.messages = 0 then w
  else
    let (sum, checksum) := w.checksum.take
    let w := w.handOver (w.buffer ++ escape [sum] ++ [magic])
    { w with buffer := [], checksum := checksum, messages := 0 }

/-- Whether a message stuffed to `length` bytes has to go into the next packet. -/
def isFullFor (w : PacketWriter) (length : Nat) : Bool :=
  w.messages > 0 && w.buffer.length + length + packetTrailerMax > w.limit

def append (w : PacketWriter) (body : Bytes) : PacketWriter :=
  let w := if w.isFullFor (escapedLength body) then w.flush else w
  { w with
    buffer := (if w.buffer.isEmpty then [magic] else w.buffer) ++ escape body
    checksum := w.checksum.update body
    messages := w.messages + 1
    messagesSent := w.messagesSent + 1 }

def appendAll (w : PacketWriter) (bodies : List Bytes) : PacketWriter := bodies.foldl append w

end PacketWriter
end RailBus
