import RailBus.Message

/-!
# Requests

What a sender wants sent to a node. A sequence number is given to it when it is transmitted, not
when it is accepted.
-/

namespace RailBus

structure Request where
  type : MessageType
  payload : Bytes := []
  action : Option ActionId := none
  deriving DecidableEq

namespace Request

/-- Whether a node's credit is taken until it answers. -/
def consumesCredit (r : Request) : Bool := r.type.expectsResponse

def toMessage (r : Request) (address : Address) (seq : UInt8) : Message :=
  { address := address, seq := seq, type := r.type, payload := r.payload, action := r.action }

end Request

/-- A transmitted request that its node has not answered. -/
structure Outstanding where
  seq : UInt8
  type : MessageType
  action : Option ActionId
  deriving DecidableEq

end RailBus
