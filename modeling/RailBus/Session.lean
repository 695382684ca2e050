import RailBus.Receiver

/-!
# Sessions

A session brings a link up, keeps it fed and takes it down again. Inbound bytes are handled as
they are injected, so every call sees the effect of all bytes before it. While a session waits for
the line, its link may also be flushed from time to time.
-/

namespace RailBus

structure Session where
  receiver : Receiver
  running : Bool := true

/-- What happens while a session waits: the line delivers bytes, or the flush interval runs out. -/
inductive Delivery
  | bytes (bs : Bytes)
  | interval

namespace Delivery

/-- Bytes that come while no interval runs out. -/
instance : Coe Bytes (List Delivery) := ⟨fun bs => [.bytes bs]⟩

/-- All that the line delivers, wherever an interval ran out. -/
def allBytes (deliveries : List Delivery) : Bytes :=
  deliveries.flatMap fun
    | .bytes bs => bs
    | .interval => []

end Delivery

namespace Session

def link (s : Session) : Link := s.receiver.link

/-- Acts on the link and keeps the packet that is being assembled. -/
def withLink (s : Session) (l : Link) : Session := { s with receiver := { s.receiver with link := l } }

def inject (s : Session) (bs : Bytes) : Session := { s with receiver := s.receiver.feed bs }

def send (s : Session) (a : Address) (r : Request) : Session × Except LinkError Receipt :=
  let (l, result) := s.link.send a r
  (s.withLink l, result)

/-- Also what the periodic flush does. -/
def flush (s : Session) : Session := s.withLink s.link.flush

def withFlow (s : Session) (f : Flow) : Session := s.withLink { s.link with flow := f }

def pollUplink (s : Session) : Session × Option Message :=
  let (inbox, m) := s.link.flow.uplink.pop
  (s.withFlow { s.link.flow with uplink := inbox }, m)

def pollError (s : Session) : Session × Option Message :=
  let (inbox, m) := s.link.flow.errors.pop
  (s.withFlow { s.link.flow with errors := inbox }, m)

def magicRequest : Request := { type := .sysGetMagic }

def disableRequest : Request := { type := .sysDisable }

/-- The interface's answer to `magicRequest`. -/
def isMagicAnswer (m : Message) : Bool := m.address.isRoot && m.type == .sysMagic

/-- Takes the session down, once: the interface is told to fall silent, whatever flow control has
to say, what is buffered leaves, and the link forgets everything but its counters. -/
def stop (s : Session) : Session :=
  if s.running then
    let l := (s.link.sendUnchecked .root disableRequest).1.flush.reset
    { s.withLink l with running := false }
  else s

/-- Each time the flush interval runs out the link is flushed, unless the configuration has none.
The messages of a packet are handled with its last byte, and no interval runs out between them. -/
def hear (s : Session) : Delivery → Session
  | .bytes bs => s.inject bs
  | .interval => if s.link.config.link.flushInterval?.isSome then s.flush else s

def hearAll (s : Session) (deliveries : List Delivery) : Session := deliveries.foldl hear s

/-- Asks the interface for its magic, hears what comes until the time is up and looks for the
answer, which is taken out of the inbox. The flush behind the request is the first one after it,
be it that of the handshake or one of an interval; what is flushed before it is nothing. -/
def handshake (s : Session) (deliveries : List Delivery) : Session × Except LinkError Unit :=
  match s.send .root magicRequest with
  | (s, .error e) => (s, .error e)
  | (s, .ok _) =>
    let s := s.flush.hearAll deliveries
    match s.link.flow.uplink.popMatching isMagicAnswer with
    | (_, none) => (s, .error (.handshakeTimeout s.link.config.session.handshakeTimeoutMs))
    | (inbox, some _) => (s.withFlow { s.link.flow with uplink := inbox }, .ok ())

/-- Starts a session on a line from which `deliveries` come. With a handshake the line is silent
until it is written to. A session that fails to start is taken down; its link is returned, unless the
configuration was refused before there was one. -/
def start (config : Config) (sink : Sink) (deliveries : List Delivery) :
    Except (LinkError × Option Link) Session :=
  match config.validate with
  | .error e => .error (.config e, none)
  | .ok () =>
    let s : Session := { receiver := { link := .new config sink } }
    if config.session.handshake then
      match s.handshake deliveries with
      | (s, .ok ()) => .ok s
      | (s, .error e) => .error (e, some s.stop.link)
    else .ok (s.hearAll deliveries)

end Session
end RailBus
