import RailBus.CommandLine.Command
import RailBus.Config.Environment
import RailBus.Json
import RailBus.Receiver
import RailBus.Text.Hex

/-!
# Carrying out a command

Every command gives a text or fails; what it reads comes from an environment.
-/

namespace RailBus

inductive CommandError
  | wire (cause : WireError)
  | config (cause : ConfigError)
  | hex (cause : Hex.Error)
  | file (cause : FileError)
  | unknownType (text : String)
  | noInput
  deriving DecidableEq, Repr

namespace CommandError

def message : CommandError → String
  | wire cause => cause.message
  | config cause => cause.message
  | hex cause => cause.message
  | file cause => cause.message
  | unknownType text => s!"unknown message type '{text}'"
  | noInput => "no input: pass hex bytes or --file"

end CommandError

namespace Message

/-- A message on one line; an empty payload is left out. -/
def line (m : Message) : String :=
  s!"addr={m.address.text} seq={m.seq.toNat} type={m.type.text}" ++
    if m.payload.isEmpty then "" else " payload=" ++ Hex.encode m.payload

def jsonLine (m : Message) : String :=
  JsonValue.objectText
    [("address", JsonValue.stringText m.address.text), ("seq", toString m.seq.toNat),
     ("msg_type", toString m.type.code.toNat),
     ("name", (m.type.name?.map JsonValue.stringText).getD "null"),
     ("payload", JsonValue.stringText (Hex.encode m.payload))]

end Message

namespace Command

def lines (ls : List String) : String := "\n".intercalate ls

def encodeMessage (address type : String) (seq : UInt8) (payload : Option String) :
    Except CommandError String := do
  let a ← (Address.parse address).mapError fun e => .wire (.invalidAddress e)
  let t ← match MessageType.parse? type with
    | some t => .ok t
    | none => .error (.unknownType (String.ofList (Text.trim type.toList)))
  let bytes ← match payload with
    | none => .ok []
    | some text => (Hex.decodeChars (Text.trim text.toList)).mapError .hex
  let m : Message := { address := a, seq := seq, type := t, payload := bytes }
  let packet ← (Packet.encode [m]).mapError .wire
  return Hex.encode packet

/-- The bytes of a file, or of hexadecimal text with white space anywhere in it. -/
def input (e : Environment) (hex file : Option String) : Except CommandError Bytes :=
  match file, hex with
  | some path, _ => (e.fileBytes path).mapError .file
  | none, some text =>
    (Hex.decodeChars (text.toList.filter fun c => !Text.isBlank c)).mapError .hex
  | none, none => .error .noInput

def resultLines (json : Bool) : Packet.Result → List String
  | .ok ms => ms.map fun m => if json then m.jsonLine else m.line
  | .error e =>
    [if json then JsonValue.objectText [("error", JsonValue.stringText e.message)]
     else "discarded packet: " ++ e.message]

def decodeLines (json : Bool) (bytes : Bytes) : List String :=
  ((Assembler.pushAll {} bytes).2).flatMap (resultLines json)

/-- The counts of a replay. -/
def summary (s : Stats) : String :=
  s!"packets={s.packetsReceived} messages={s.messagesReceived} crc_errors={s.crcErrors} " ++
    s!"framing_errors={s.framingErrors} sequence_gaps={s.sequenceGaps} noise_bytes={s.noiseBytes}"

/-- A link that has received `bytes`; whatever it answers is discarded. -/
def replayed (config : Config) (bytes : Bytes) : Link :=
  (({ link := .new config } : Receiver).feed bytes).link

def replayLines (l : Link) : List String :=
  l.flow.uplink.messages.map (fun m => "uplink  " ++ m.line) ++
    l.flow.errors.messages.map (fun m => "error   " ++ m.line) ++ [summary l.stats] ++
    (l.flow.table.states.filter (·.stalled)).map fun s => s!"node {s.address.text} stalled"

def loadValid (e : Environment) (file : Option String) : Except CommandError Config := do
  let c ← (match file with
    | some path => Config.fromFile e path
    | none => Config.load e).mapError .config
  c.validate.mapError .config
  return c

def execute (e : Environment) : Command → Except CommandError String
  | encode address type seq payload => encodeMessage address type seq payload
  | decode hex file json => (input e hex file).map fun bytes => lines (decodeLines json bytes)
  | replay hex file => do
    let bytes ← input e hex file
    let config ← loadValid e none
    return lines (replayLines (replayed config bytes))
  | config file => (loadValid e file).map Config.toYaml

end Command
end RailBus
