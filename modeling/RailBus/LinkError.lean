import RailBus.Config
import RailBus.Text.Duration
import RailBus.WireError

/-!
# Errors of a link

Being held back by flow control is not among them: such a message is accepted and waits.
-/

namespace RailBus

inductive LinkError
  | wire (cause : WireError)
  | capacity (size max : Nat)
  | config (cause : ConfigError)
  | handshakeTimeout (ms : Nat)
  | device (reason : String)
  deriving DecidableEq, Repr

namespace LinkError

def message : LinkError → String
  | wire cause => "protocol error: " ++ cause.message
  | capacity size max => s!"message needs {size} framed bytes, packets are limited to {max}"
  | config cause => "configuration error: " ++ cause.message
  | handshakeTimeout ms => "interface did not answer within " ++ Text.duration ms
  | device reason => "I/O error: " ++ reason

/-- The message at hand can never be sent, and trying left nothing behind. -/
def isRejectedInput : LinkError → Bool
  | capacity _ _ | wire (.messageTooLarge _ _) | wire (.invalidAddress _) => true
  | wire _ | config _ | handshakeTimeout _ | device _ => false

def isRetryable : LinkError → Bool
  | handshakeTimeout _ | device _ => true
  | wire _ | capacity _ _ | config _ => false

end LinkError
end RailBus
