import RailBus.WireError
import RailBus.Text.Blank
import RailBus.Text.Numeral

/-!
# Message types

One byte. The upper half is what nodes send; most of the lower half asks for an answer.
-/

namespace RailBus

structure MessageType where
  code : UInt8
  deriving DecidableEq, Repr

namespace MessageType

def sysGetMagic : MessageType := ⟨0x01⟩
def sysEnable : MessageType := ⟨0x03⟩
def sysDisable : MessageType := ⟨0x04⟩
def sysReset : MessageType := ⟨0x09⟩
def nodeChangedAck : MessageType := ⟨0x0D⟩
def sysMagic : MessageType := ⟨0x81⟩
def sysError : MessageType := ⟨0x86⟩
def pktCapacity : MessageType := ⟨0x8A⟩
def nodeNa : MessageType := ⟨0x8B⟩
def nodeLost : MessageType := ⟨0x8C⟩
def nodeNew : MessageType := ⟨0x8D⟩
def stall : MessageType := ⟨0x8E⟩

def names : List (UInt8 × String) :=
  [(0x01, "SYS_GET_MAGIC"), (0x02, "SYS_GET_P_VERSION"), (0x03, "SYS_ENABLE"),
   (0x04, "SYS_DISABLE"), (0x05, "SYS_GET_UNIQUE_ID"), (0x06, "SYS_GET_SW_VERSION"),
   (0x07, "SYS_PING"), (0x08, "SYS_IDENTIFY"), (0x09, "SYS_RESET"), (0x0A, "GET_PKT_CAPACITY"),
   (0x0B, "NODETAB_GETALL"), (0x0C, "NODETAB_GETNEXT"), (0x0D, "NODE_CHANGED_ACK"),
   (0x0E, "SYS_GET_ERROR"), (0x81, "SYS_MAGIC"), (0x82, "SYS_PONG"), (0x83, "SYS_P_VERSION"),
   (0x84, "SYS_UNIQUE_ID"), (0x85, "SYS_SW_VERSION"), (0x86, "SYS_ERROR"),
   (0x87, "SYS_IDENTIFY_STATE"), (0x88, "NODETAB_COUNT"), (0x89, "NODETAB"),
   (0x8A, "PKT_CAPACITY"), (0x8B, "NODE_NA"), (0x8C, "NODE_LOST"), (0x8D, "NODE_NEW"),
   (0x8E, "STALL")]

def name? (t : MessageType) : Option String := names.lookup t.code

/-- The name, or the code in hexadecimal where there is none. -/
def text (t : MessageType) : String := t.name?.getD (hexByte t.code)

def debugText (t : MessageType) : String := "MessageType(" ++ t.text ++ ")"

def isUplink (t : MessageType) : Bool := 0x80 ≤ t.code

def isDownlink (t : MessageType) : Bool := !t.isUplink

/-- Requests that a node answers; each takes one credit until it does. -/
def expectsResponse (t : MessageType) : Bool :=
  t.isDownlink && !(t ∈ [sysEnable, sysDisable, sysReset, nodeChangedAck])

/-- Sent by a node of its own accord, never as an answer. -/
def isSpontaneous (t : MessageType) : Bool := t ∈ [stall, nodeNew, nodeLost]

def isError (t : MessageType) : Bool := t ∈ [sysError, nodeNa, nodeLost]

/-- Reads a code in decimal, or in hexadecimal after `0x`, or a name in letters of any case. -/
def parse? (s : String) : Option MessageType :=
  let cs := Text.trim s.toList
  let code := match cs with
    | '0' :: 'x' :: digits | '0' :: 'X' :: digits => Text.byte? 16 digits
    | _ => Text.byte? 10 cs
  (code <|> (names.find? fun entry => Text.sameLetters entry.2 (String.ofList cs)).map (·.1)).map
    MessageType.mk

end MessageType
end RailBus
