import RailBus.Checksum
import RailBus.Message
import RailBus.Stuffing

/-!
# Packets

A packet carries messages back to back and then their checksum, stuffed and between delimiters.
-/

namespace RailBus

/-- The most unstuffed bytes a packet may hold, checksum included. -/
def maxPacketBody : Nat := 512

/-- The least and the largest packet size that may be configured. -/
def minPacketSize : Nat := 7
def maxPacketSize : Nat := 256

/-- A checksum of two bytes and the closing delimiter. -/
def packetTrailerMax : Nat := 3

/-- The most bytes a packet around `body` can need, whatever its checksum. -/
def framedLength (body : Bytes) : Nat := 1 + escapedLength body + packetTrailerMax

namespace Packet

/-- What a packet turned out to hold. -/
abbrev Result := Except WireError (List Message)

def frame (body : Bytes) : Bytes := magic :: escape body ++ escape [crc8 body] ++ [magic]

/-- The error is that of the first message that cannot be sent. -/
def body : List Message → Except WireError Bytes
  | [] => .ok []
  | m :: rest =>
    match m.encode with
    | .error e => .error e
    | .ok bytes => (body rest).map (bytes ++ ·)

def encode (ms : List Message) : Except WireError Bytes := (body ms).map frame

/-- Reads unstuffed bytes, of which the last is the checksum. -/
def decodeBody (bytes : Bytes) : Result :=
  match bytes.getLast? with
  | none => .error (.truncated 1 0)
  | some expected =>
    let actual := crc8 bytes.dropLast
    if actual = expected then Message.decodeAll bytes.dropLast
    else .error (.crcMismatch expected actual)

end Packet
end RailBus
