import RailBus.Flow
import RailBus.PacketWriter

/-!
# Links

Flow control and the packet writer together: what the one transmits the other packs.
-/

namespace RailBus

structure Link where
  config : Config
  flow : Flow
  writer : PacketWriter
  packetsReceived : Nat := 0
  crcErrors : Nat := 0
  framingErrors : Nat := 0
  noiseBytes : Nat := 0

structure Stats where
  packetsWritten : Nat
  bytesWritten : Nat
  writeErrors : Nat
  messagesSent : Nat
  messagesQueued : Nat
  packetsReceived : Nat
  messagesReceived : Nat
  crcErrors : Nat
  framingErrors : Nat
  noiseBytes : Nat
  sequenceGaps : Nat
  deriving DecidableEq, Repr

namespace Link

def new (config : Config) (sink : Sink := {}) : Link :=
  { config := config
    flow :=
      { limit := config.link.maxPacketSize
        table := .new config.flowControl.defaultCredit config.flowControl.honorReportedCapacity }
    writer := { limit := config.link.maxPacketSize, sink := sink } }

/-- Takes over what flow control became and packs what it transmitted. -/
def pack (l : Link) (flow : Flow) (sent : List Message) : Link :=
  { l with flow := flow, writer := l.writer.appendAll (sent.map Message.layout) }

/-- Sends a message or has it wait. One that no packet can hold is refused and changes nothing. -/
def send (l : Link) (a : Address) (r : Request) : Link × Except LinkError Receipt :=
  match l.flow.send a r with
  | .error e => (l, .error e)
  | .ok (flow, receipt, sent) => (l.pack flow sent, .ok receipt)

def sendUnchecked (l : Link) (a : Address) (r : Request) : Link × Except LinkError UInt8 :=
  match l.flow.sendUnchecked a r with
  | .error e => (l, .error e)
  | .ok (flow, seq, sent) => (l.pack flow sent, .ok seq)

def flush (l : Link) : Link := { l with writer := l.writer.flush }

def receive (l : Link) (m : Message) : Link :=
  let (flow, sent) := l.flow.receive m
  let l := l.pack flow sent
  if Flow.closesPacket m then l.flush else l

/-- Handles what the assembler made of one packet. -/
def handlePacket (l : Link) : Packet.Result → Link
  | .ok ms => ms.foldl receive { l with packetsReceived := l.packetsReceived + 1 }
  | .error (.crcMismatch _ _) => { l with crcErrors := l.crcErrors + 1 }
  | .error _ => { l with framingErrors := l.framingErrors + 1 }

def handlePackets (l : Link) (results : List Packet.Result) : Link := results.foldl handlePacket l

/-- Forgets nodes, inboxes and the packet under construction; the counters run on. -/
def reset (l : Link) : Link := { l with flow := l.flow.reset, writer := l.writer.discard }

def stats (l : Link) : Stats :=
  { packetsWritten := l.writer.packetsWritten
    bytesWritten := l.writer.bytesWritten
    writeErrors := l.writer.writeErrors
    messagesSent := l.writer.messagesSent
    messagesQueued := l.flow.messagesQueued
    packetsReceived := l.packetsReceived
    messagesReceived := l.flow.messagesReceived
    crcErrors := l.crcErrors
    framingErrors := l.framingErrors
    noiseBytes := l.noiseBytes
    sequenceGaps := l.flow.sequenceGaps }

end Link
end RailBus
