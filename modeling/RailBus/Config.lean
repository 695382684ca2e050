import RailBus.Packet

/-!
# Configuration

The settings of a link and its session, their defaults, and the ranges they have to lie in.
-/

namespace RailBus

structure LinkConfig where
  /-- Largest packet handed to the sink, delimiters included. -/
  maxPacketSize : Nat := 64
  /-- Milliseconds between periodic flushes, 0 for none. -/
  flushIntervalMs : Nat := 10
  receivePollIntervalMs : Nat := 1
  deriving DecidableEq, Repr

structure FlowControlConfig where
  /-- Requests a node may have unanswered before further ones wait. -/
  defaultCredit : UInt8 := 4
  /-- Take a node's credit from the buffer size it reports. -/
  honorReportedCapacity : Bool := true
  deriving DecidableEq, Repr

structure SessionConfig where
  /-- Ask the interface for its magic before the session counts as started. -/
  handshake : Bool := true
  handshakeTimeoutMs : Nat := 1000
  deriving DecidableEq, Repr

structure Config where
  link : LinkConfig := {}
  flowControl : FlowControlConfig := {}
  session : SessionConfig := {}
  deriving DecidableEq, Repr

inductive ConfigError
  | unreadable (path reason : String)
  | malformed (path reason : String)
  | packetSize (size : Nat)
  | noCredit
  /-- a reason given from outside -/
  | invalid (reason : String)
  deriving DecidableEq, Repr

namespace ConfigError

def message : ConfigError → String
  | unreadable path reason => s!"failed to read config file '{path}': {reason}"
  | malformed path reason => s!"failed to parse config file '{path}': {reason}"
  | packetSize size =>
    "configuration validation failed: link.max_packet_size must be within " ++
      s!"{minPacketSize}..={maxPacketSize}, got {size}"
  | noCredit => "configuration validation failed: flow_control.default_credit must be at least 1"
  | invalid reason => s!"configuration validation failed: {reason}"

end ConfigError

namespace LinkConfig

/-- `none` when periodic flushing is off. -/
def flushInterval? (c : LinkConfig) : Option Nat :=
  if c.flushIntervalMs = 0 then none else some c.flushIntervalMs

end LinkConfig

namespace Config

def validate (c : Config) : Except ConfigError Unit :=
  if c.link.maxPacketSize < minPacketSize ∨ maxPacketSize < c.link.maxPacketSize then
    .error (.packetSize c.link.maxPacketSize)
  else if c.flowControl.defaultCredit = 0 then .error .noCredit
  else .ok ()

end Config
end RailBus
