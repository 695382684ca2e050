import RailBus.Address
import RailBus.MessageType

/-!
# Messages

A message is a length byte and as many bytes of content: the address stack, the sequence number,
the type and the payload.
-/

namespace RailBus

/-- The largest length byte that may be sent. -/
def maxMessageLength : Nat := 127

/-- The number of a message that does not count. -/
def noSequence : UInt8 := 0

/-- Ties an answer to the request it answers; it stays on this side of the line. -/
abbrev ActionId := UInt32

structure Message where
  address : Address
  seq : UInt8 := noSequence
  type : MessageType
  payload : Bytes := []
  action : Option ActionId := none
  deriving DecidableEq

namespace Message

def content (m : Message) : Bytes := m.address.stack ++ m.seq :: m.type.code :: m.payload

/-- What the length byte has to say. -/
def contentLength (m : Message) : Nat := m.address.stackLength + 2 + m.payload.length

def layout (m : Message) : Bytes := UInt8.ofNat m.contentLength :: m.content

def fits (m : Message) : Bool := m.contentLength ≤ maxMessageLength

def validate (m : Message) : Except WireError Unit :=
  if m.fits then .ok () else .error (.messageTooLarge m.contentLength maxMessageLength)

def encode (m : Message) : Except WireError Bytes := m.validate.map fun _ => m.layout

/-- Reads the content of one message; whatever follows the type is payload. -/
def decode (content : Bytes) : Except WireError Message :=
  match Address.read content with
  | .error e => .error e
  | .ok (address, seq :: code :: payload) =>
    .ok { address := address, seq := seq, type := ⟨code⟩, payload := payload }
  | .ok (address, _) => .error (.truncated (address.stackLength + 2) content.length)

/-- The least length byte: the interface's empty stack, a number and a type. -/
def minMessageLength : Nat := 3

/-- Splits a byte string into messages by their length bytes. -/
def decodeAll : Bytes → Except WireError (List Message)
  | [] => .ok []
  | length :: rest =>
    if length.toNat < minMessageLength then .error (.invalidLength length)
    else if rest.length < length.toNat then .error (.truncated length.toNat rest.length)
    else
      match decode (rest.take length.toNat) with
      | .error e => .error e
      | .ok m => (decodeAll (rest.drop length.toNat)).map (m :: ·)
termination_by bs => bs.length
decreasing_by
  rw [List.length_drop, List.length_cons]
  omega

end Message
end RailBus
