import RailBus.Config.Yaml
import RailBus.FileTree
import RailBus.Text.Blank
import RailBus.Text.Numeral

/-!
# Where a configuration comes from

The defaults, then the file that `BIDIB_CONFIG` names, then single settings from the environment;
what comes later prevails. A variable that is not text, or not a value of its setting, is passed
over.
-/

namespace RailBus

structure Environment where
  settings : List (String × Bytes) := []
  fileBytes : String → Except FileError Bytes := fun _ => .error .missing

namespace Environment

def lookup? (e : Environment) (name : String) : Option String :=
  (e.settings.lookup name).bind fun bytes => String.fromUTF8? ⟨bytes.toArray⟩

def natural (e : Environment) (name : String) (bound fallback : Nat) : Nat :=
  ((e.lookup? name).bind fun text => Text.natural? 10 bound text.toList).getD fallback

/-- A truth value is `1` or `true` in letters of any case; every other text is false. -/
def boolean (e : Environment) (name : String) (fallback : Bool) : Bool :=
  match e.lookup? name with
  | none => fallback
  | some text => text == "1" || Text.sameLetters text "true"

end Environment

namespace Config

def fromFile (e : Environment) (path : String) : Except ConfigError Config :=
  match e.fileBytes path with
  | .error e => .error (.unreadable path e.message)
  | .ok bytes =>
    match String.fromUTF8? ⟨bytes.toArray⟩ with
    | none => .error (.unreadable path "stream did not contain valid UTF-8")
    | some text => (ofYaml text).mapError (.malformed path)

/-- Also a file that cannot be written is reported as unreadable. -/
def save (c : Config) (t : FileTree) (path : String) : Except ConfigError FileTree :=
  (t.write path c.toYaml.toUTF8.toList).mapError fun e => .unreadable path e.message

def override (e : Environment) (c : Config) : Config :=
  { link := {
      maxPacketSize := e.natural "BIDIB_MAX_PACKET_SIZE" wordBound c.link.maxPacketSize
      flushIntervalMs := e.natural "BIDIB_FLUSH_INTERVAL_MS" wordBound c.link.flushIntervalMs
      receivePollIntervalMs :=
        e.natural "BIDIB_RECEIVE_POLL_MS" wordBound c.link.receivePollIntervalMs }
    flowControl := {
      defaultCredit :=
        UInt8.ofNat (e.natural "BIDIB_DEFAULT_CREDIT" 256 c.flowControl.defaultCredit.toNat)
      honorReportedCapacity :=
        e.boolean "BIDIB_HONOR_REPORTED_CAPACITY" c.flowControl.honorReportedCapacity }
    session := {
      handshake := e.boolean "BIDIB_HANDSHAKE" c.session.handshake
      handshakeTimeoutMs :=
        e.natural "BIDIB_HANDSHAKE_TIMEOUT_MS" wordBound c.session.handshakeTimeoutMs } }

def load (e : Environment) : Except ConfigError Config :=
  match e.lookup? "BIDIB_CONFIG" with
  | none => .ok (override e {})
  | some path => (fromFile e path).map (override e)

end Config
end RailBus
