import RailBus.Config
import RailBus.Yaml.Value

/-!
# Configuration as YAML

Three sections of scalars, under the names that follow. Sections and fields may be missing, and
unknown ones are passed over.
-/

namespace RailBus

/-- Settings that are counted in 64 bits. -/
def wordBound : Nat := Nat.pow 2 64

namespace LinkConfig

def ofYaml (d : Yaml.Document) (n : Yaml.Node) : Except Yaml.ValueError LinkConfig := do
  let default : LinkConfig := {}
  let found ←
    d.fields ["max_packet_size", "flush_interval_ms", "receive_poll_interval_ms"] n
  let word := Yaml.Document.natural wordBound d
  return {
    maxPacketSize := ← Yaml.Document.field found "max_packet_size" default.maxPacketSize word
    flushIntervalMs := ← Yaml.Document.field found "flush_interval_ms" default.flushIntervalMs word
    receivePollIntervalMs :=
      ← Yaml.Document.field found "receive_poll_interval_ms" default.receivePollIntervalMs word }

def yamlLines (c : LinkConfig) : List String :=
  ["link:", s!"  max_packet_size: {c.maxPacketSize}",
    s!"  flush_interval_ms: {c.flushIntervalMs}",
    s!"  receive_poll_interval_ms: {c.receivePollIntervalMs}"]

end LinkConfig

namespace FlowControlConfig

def ofYaml (d : Yaml.Document) (n : Yaml.Node) : Except Yaml.ValueError FlowControlConfig := do
  let default : FlowControlConfig := {}
  let found ← d.fields ["default_credit", "honor_reported_capacity"] n
  let byte (n : Yaml.Node) := (d.natural 256 n).map UInt8.ofNat
  return {
    defaultCredit := ← Yaml.Document.field found "default_credit" default.defaultCredit byte
    honorReportedCapacity :=
      ← Yaml.Document.field found "honor_reported_capacity" default.honorReportedCapacity d.boolean }

def yamlLines (c : FlowControlConfig) : List String :=
  ["flow_control:", s!"  default_credit: {c.defaultCredit.toNat}",
    s!"  honor_reported_capacity: {c.honorReportedCapacity}"]

end FlowControlConfig

namespace SessionConfig

def ofYaml (d : Yaml.Document) (n : Yaml.Node) : Except Yaml.ValueError SessionConfig := do
  let default : SessionConfig := {}
  let found ← d.fields ["handshake", "handshake_timeout_ms"] n
  return {
    handshake := ← Yaml.Document.field found "handshake" default.handshake d.boolean
    handshakeTimeoutMs :=
      ← Yaml.Document.field found "handshake_timeout_ms" default.handshakeTimeoutMs
        (d.natural wordBound) }

def yamlLines (c : SessionConfig) : List String :=
  ["session:", s!"  handshake: {c.handshake}", s!"  handshake_timeout_ms: {c.handshakeTimeoutMs}"]

end SessionConfig

namespace Config

def ofDocument (d : Yaml.Document) : Except Yaml.ValueError Config := do
  let found ← d.fields ["link", "flow_control", "session"] d.root
  return {
    link := ← Yaml.Document.field found "link" {} (LinkConfig.ofYaml d)
    flowControl := ← Yaml.Document.field found "flow_control" {} (FlowControlConfig.ofYaml d)
    session := ← Yaml.Document.field found "session" {} (SessionConfig.ofYaml d) }

/-- Reads a configuration; the error is a text for the user. -/
def ofYaml (text : String) : Except String Config :=
  match Yaml.document text with
  | .error e => .error e.message
  | .ok none => .ok {}
  | .ok (some d) => (ofDocument d).mapError Yaml.ValueError.message

def toYaml (c : Config) : String :=
  String.join ((c.link.yamlLines ++ c.flowControl.yamlLines ++ c.session.yamlLines).map (· ++ "\n"))

end Config
end RailBus
