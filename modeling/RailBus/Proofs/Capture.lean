import RailBus.Proofs.Hearing
import RailBus.Proofs.Lines
import RailBus.Proofs.Reception

/-!
# Captures

A capture can be decoded, which shows what its packets hold, or replayed through the receiving end
of a link, which answers, takes credit and holds messages back all the while. What is shown in the
end is what decoding shows, sorted and counted, whatever the link was set to
(`replay_agrees_with_decode`).
-/

namespace RailBus

open Text

namespace Capture

/-- What stands at one place of a capture: a message, or a packet that is discarded. -/
abbrev Entry := Except WireError Message

def ofPacket : Packet.Result → List Entry
  | .ok ms => ms.map .ok
  | .error e => [.error e]

/-- What an assembler makes of a capture. -/
def packets (bytes : Bytes) : List Packet.Result := (({} : Assembler).pushAll bytes).2

def entries (bytes : Bytes) : List Entry := (packets bytes).flatMap ofPacket

def messages (bytes : Bytes) : List Message := Packet.arrivals (packets bytes)

def entryLine : Entry → String
  | .ok m => m.line
  | .error e => "discarded packet: " ++ e.message

/-- A message of a type that `p` holds of. -/
def holds (p : MessageType → Bool) : Entry → Bool
  | .ok m => p m.type
  | .error _ => false

def discarded : Entry → Bool
  | .ok _ => false
  | .error _ => true

/-- What a replay counts: packets and messages of all kinds, bytes outside of packets, and numbers
that do not follow the last from the same node. -/
def counts (bytes : Bytes) : Stats :=
  { Stats.zero with
    packetsReceived := (packets bytes).countP Packet.readable
    messagesReceived := (messages bytes).length
    crcErrors := (packets bytes).countP Packet.mismatched
    framingErrors := (packets bytes).countP Packet.malformed
    noiseBytes := (({} : Assembler).pushAll bytes).1.noise
    sequenceGaps := gaps (fun _ => none) ((messages bytes).map fun m => (m.address, m.seq)) }

/-- The flags that the messages of a capture leave. -/
def flags (bytes : Bytes) : Flags := (messages bytes).foldl Flags.hear {}

/-- The lines of the messages of certain types, marked. -/
def marked (mark : String) (p : MessageType → Bool) (bytes : Bytes) : List String :=
  ((entries bytes).filter (holds p)).map (mark ++ entryLine ·)

/-- What a replay shows. Neither credit nor packet sizes nor reported capacities come into it. -/
def replayLines (bytes : Bytes) : List String :=
  marked "uplink  " (fun t => t ≠ .stall && !t.isError) bytes ++
    marked "error   " (·.isError) bytes ++ [Command.summary (counts bytes)] ++
    (flags bytes).stalledNodes.map fun a => s!"node {a.text} stalled"

/-! ## What decoding shows -/

theorem resultLines_eq (result : Packet.Result) :
    Command.resultLines false result = (ofPacket result).map entryLine := by
  cases result with
  | ok ms =>
    rw [ofPacket, List.map_map]
    rfl
  | error e => rfl

theorem decodeLines_eq (bytes : Bytes) :
    Command.decodeLines false bytes = (entries bytes).map entryLine := by
  rw [Command.decodeLines, entries, List.map_flatMap]
  exact List.flatMap_congr fun result _ => resultLines_eq result

theorem filterMap_ofPacket (result : Packet.Result) :
    (ofPacket result).filterMap Except.toOption = Packet.messages result := by
  cases result with
  | ok ms =>
    rw [ofPacket, List.filterMap_map]
    exact List.filterMap_some
  | error e => rfl

theorem messages_eq (bytes : Bytes) :
    messages bytes = (entries bytes).filterMap Except.toOption := by
  rw [messages, Packet.arrivals, entries, List.filterMap_flatMap]
  exact List.flatMap_congr fun result _ => (filterMap_ofPacket result).symm

theorem isLine_entryLine {bytes : Bytes} {x : Entry} (h : x ∈ entries bytes) :
    IsLine (entryLine x) := by
  obtain ⟨result, hresult, hx⟩ := List.mem_flatMap.1 h
  cases result with
  | ok ms =>
    obtain ⟨m, -, rfl⟩ := List.mem_map.1 hx
    exact m.isLine_line
  | error e =>
    obtain rfl := List.mem_singleton.1 hx
    have hreported := Assembler.reported_of_mem_pushAll (Nat.zero_le _) hresult
    exact IsLine.append ⟨by decide, by decide⟩ hreported.unbroken_message

/-! ## Counting entries -/

theorem length_messages (bytes : Bytes) :
    (messages bytes).length = (entries bytes).countP (holds fun _ => true) := by
  rw [messages_eq, List.length_filterMap_eq_countP]
  apply List.countP_congr
  intro x _
  cases x <;> rfl

theorem countP_ofPacket (result : Packet.Result) :
    (ofPacket result).countP discarded =
      (Packet.mismatched result).toNat + (Packet.malformed result).toNat := by
  cases result with
  | ok ms =>
    rw [ofPacket, List.countP_map]
    exact List.countP_eq_zero.2 fun _ _ => Bool.false_ne_true
  | error e =>
    show 1 = e.isMismatch.toNat + (!e.isMismatch).toNat
    cases e.isMismatch <;> rfl

theorem countP_discarded (bytes : Bytes) :
    (entries bytes).countP discarded =
      (packets bytes).countP Packet.mismatched + (packets bytes).countP Packet.malformed := by
  rw [entries]
  induction packets bytes with
  | nil => rfl
  | cons result rest ih =>
    rw [List.flatMap_cons, List.countP_append, ih, countP_ofPacket, Packet.countP_cons,
      Packet.countP_cons]
    omega

/-! ## What a replay shows -/

theorem marked_eq (mark : String) (p : MessageType → Bool) (bytes : Bytes) :
    marked mark p bytes =
      ((messages bytes).filter fun m => p m.type).map fun m => mark ++ m.line := by
  rw [marked, messages_eq]
  induction entries bytes with
  | nil => rfl
  | cons x rest ih =>
    cases x with
    | error e =>
      have he : Except.toOption (.error e : Entry) = none := rfl
      have hholds : ¬ holds p (.error e) = true := Bool.false_ne_true
      rw [List.filterMap_cons_none he, List.filter_cons_of_neg hholds, ih]
    | ok m =>
      have hm : Except.toOption (.ok m : Entry) = some m := rfl
      have hholds : holds p (.ok m) = p m.type := rfl
      have hline : entryLine (.ok m) = m.line := rfl
      rw [List.filterMap_cons_some hm, List.filter_cons, List.filter_cons, hholds]
      split
      · rw [List.map_cons, List.map_cons, ih, hline]
      · exact ih

theorem isLine_of_mem_marked {mark : String} {p : MessageType → Bool} {bytes : Bytes} {l : String}
    (hmark : IsLine mark) (h : l ∈ marked mark p bytes) : IsLine l := by
  obtain ⟨x, hx, rfl⟩ := List.mem_map.1 h
  exact hmark.append (isLine_entryLine (List.mem_filter.1 hx).1).unbroken

theorem isLine_summary (s : Stats) : IsLine (Command.summary s) := by
  delta Command.summary
  constructor
  · simp
  · simp only [unbroken_append, unbroken_decimal, and_true]
    decide

theorem isLine_stalled (a : Address) : IsLine s!"node {a.text} stalled" := by
  have hnode : IsLine (toString "node " ++ toString a.text) :=
    IsLine.append ⟨by decide, by decide⟩ (unbroken_address a)
  exact hnode.append (by decide)

theorem isLine_of_mem_replayLines {bytes : Bytes} {l : String} (h : l ∈ replayLines bytes) :
    IsLine l := by
  simp only [replayLines, List.mem_append, List.mem_singleton, List.mem_map] at h
  obtain ((h | h) | rfl) | ⟨a, -, rfl⟩ := h
  · exact isLine_of_mem_marked ⟨by decide, by decide⟩ h
  · exact isLine_of_mem_marked ⟨by decide, by decide⟩ h
  · exact isLine_summary _
  · exact isLine_stalled a

theorem map_line_of_deliveredAs {ms ds : List Message}
    (h : List.Forall₂ Message.DeliveredAs ms ds) (mark : String) :
    (ds.map fun d => mark ++ d.line) = ms.map fun m => mark ++ m.line := by
  induction h with
  | nil => rfl
  | @cons m d _ _ hmd _ ih =>
    -- no action id stands on a line
    have honLine : d.onLine.line = m.onLine.line := congrArg Message.line hmd.1
    have hline : d.line = m.line := honLine
    rw [List.map_cons, List.map_cons, ih, hline]

theorem isError_stall : MessageType.stall.isError = false := by decide

/-- Flow control has met the messages of the capture, one after the other. -/
theorem flow_replayed (config : Config) (bytes : Bytes) :
    (Command.replayed config bytes).flow =
      ((Link.new config).flow.run ((messages bytes).map .receive)).1 :=
  (Receiver.feed_takes { link := .new config } bytes).flow

theorem summary_replayed (config : Config) (bytes : Bytes) :
    Command.summary (Command.replayed config bytes).stats = Command.summary (counts bytes) := by
  have huptodate : Receiver.UpToDate { link := .new config } := rfl
  have hlink : Command.replayed config bytes =
      ((Link.new config).handlePackets (packets bytes)).addNoise
        (({} : Assembler).pushAll bytes).1.noise :=
    congrArg Receiver.link (Receiver.feed_eq huptodate bytes)
  obtain ⟨hpackets, hcrc, hframing⟩ := (Link.new config).packets_handlePackets (packets bytes)
  have hmessages := (Link.new config).flow.messagesReceived_run (messages bytes)
  have hgaps := (Link.new config).flow.sequenceGaps_run (messages bytes)
  rw [← flow_replayed, hlink] at hmessages hgaps
  rw [hlink]
  delta Command.summary
  simp only [Link.stats, hmessages, hgaps]
  simp only [Link.addNoise, hpackets, hcrc, hframing, Link.noiseBytes_handlePackets]
  -- a new link has counted nothing and heard of no node
  simp only [Link.new, counts, Nat.zero_add]
  rfl

theorem uplink_replayed (config : Config) (bytes : Bytes) :
    ((Command.replayed config bytes).flow.uplink.messages.map fun m => "uplink  " ++ m.line) =
      marked "uplink  " (fun t => t ≠ .stall && !t.isError) bytes := by
  obtain ⟨⟨ds, hds, hdelivered⟩, -⟩ := (Link.new config).flow.inboxes_run (messages bytes)
  rw [flow_replayed, hds, marked_eq]
  exact map_line_of_deliveredAs hdelivered _

theorem errors_replayed (config : Config) (bytes : Bytes) :
    ((Command.replayed config bytes).flow.errors.messages.map fun m => "error   " ++ m.line) =
      marked "error   " (·.isError) bytes := by
  obtain ⟨-, ds, hds, hdelivered⟩ := (Link.new config).flow.inboxes_run (messages bytes)
  have hfilter : ((messages bytes).filter fun m => m.type ≠ .stall && m.type.isError) =
      (messages bytes).filter fun m => m.type.isError := by
    apply List.filter_congr
    intro m _
    by_cases hm : m.type = .stall <;> simp [hm, isError_stall]
  rw [hfilter] at hdelivered
  rw [flow_replayed, hds, marked_eq]
  exact map_line_of_deliveredAs hdelivered _

theorem stalled_replayed (config : Config) (bytes : Bytes) :
    (((Command.replayed config bytes).flow.table.states.filter (·.stalled)).map fun s =>
        s!"node {s.address.text} stalled") =
      (flags bytes).stalledNodes.map fun a => s!"node {a.text} stalled" := by
  have hflags : (Command.replayed config bytes).flow.table.flags = flags bytes := by
    rw [flow_replayed, Flow.flags_run]
    rfl
  rw [← hflags, NodeTable.stalledNodes_flags, List.map_map]
  rfl

theorem replayLines_replayed (config : Config) (bytes : Bytes) :
    Command.replayLines (Command.replayed config bytes) = replayLines bytes := by
  rw [Command.replayLines, replayLines, uplink_replayed, errors_replayed, summary_replayed,
    stalled_replayed]

/-- The texts `decoded` and `replayed` show the same capture. -/
structure Agree (bytes : Bytes) (decoded replayed : String) : Prop where
  /-- a line for each entry -/
  decoded : linesOf decoded = (entries bytes).map entryLine
  /-- the lines of certain messages, those of others, what was counted and the stalled nodes -/
  replayed : linesOf replayed = replayLines bytes
  messages : (counts bytes).messagesReceived = (entries bytes).countP (holds fun _ => true)
  discarded :
    (counts bytes).crcErrors + (counts bytes).framingErrors = (entries bytes).countP discarded
  packets : (counts bytes).packetsReceived + (counts bytes).crcErrors +
    (counts bytes).framingErrors = (packets bytes).length

end Capture

namespace Command

open Capture

/-- **A replay agrees with decoding.** For any bytes there is one text that decoding them gives, and
one that replaying them gives under every configuration that is valid. The second repeats, in order,
the lines of the messages that are neither stall signals nor error reports, then those of the error
reports. Behind these stand the counts: of all messages, of the packets that are discarded, and with
these of all packets. -/
theorem replay_agrees_with_decode (bytes : Bytes) :
    ∃ decoded replayed : String, Agree bytes decoded replayed ∧
      ∀ (e : Environment) (hex file : Option String), input e hex file = .ok bytes →
        execute e (.decode hex file false) = .ok decoded ∧
        ∀ config, loadValid e none = .ok config →
          execute e (.replay hex file) = .ok replayed := by
  have hdecoded : ∀ l ∈ (entries bytes).map entryLine, IsLine l := by
    intro l hl
    obtain ⟨x, hx, rfl⟩ := List.mem_map.1 hl
    exact isLine_entryLine hx
  refine ⟨lines ((entries bytes).map entryLine), lines (Capture.replayLines bytes),
    { decoded := linesOf_lines hdecoded
      replayed := linesOf_lines fun l => isLine_of_mem_replayLines
      messages := length_messages bytes
      discarded := (countP_discarded bytes).symm
      packets := (Packet.length_eq_countP (packets bytes)).symm }, ?_⟩
  intro e hex file hinput
  constructor
  · rw [execute, hinput, Except.map, decodeLines_eq]
  · intro config hconfig
    rw [← replayLines_replayed config bytes]
    simp only [execute, hinput, hconfig]
    rfl

/-- A credit of one and packets of nine bytes at most: a byte of noise, then a packet in which a
node stops itself, the interface tells its capacity and a node is lost, then a damaged packet. -/
theorem lost_and_damaged_replayed :
    let e : Environment :=
      { settings := [("BIDIB_DEFAULT_CREDIT", [0x31]), ("BIDIB_MAX_PACKET_SIZE", [0x39])] }
    let hex := some "00 fe 050100018e01 0400018a08 0500038c0201 b2 fe 050100018e01 21 fe"
    (∃ bytes config, input e hex none = .ok bytes ∧ loadValid e none = .ok config) ∧
      ∃ decoded replayed,
        execute e (.decode hex none false) = .ok decoded ∧
        execute e (.replay hex none) = .ok replayed ∧
        linesOf decoded =
          ["addr=1 seq=1 type=STALL payload=01", "addr=0 seq=1 type=PKT_CAPACITY payload=08",
           "addr=0 seq=3 type=NODE_LOST payload=0201",
           "discarded packet: CRC mismatch: expected 0x21, got 0x20"] ∧
        linesOf replayed =
          ["uplink  addr=0 seq=1 type=PKT_CAPACITY payload=08",
           "error   addr=0 seq=3 type=NODE_LOST payload=0201",
           "packets=1 messages=3 crc_errors=1 framing_errors=0 sequence_gaps=1 noise_bytes=1",
           "node 1 stalled"] := by
  intro e hex
  let bytes : Bytes :=
    [0x00, 0xFE, 5, 1, 0, 1, 0x8E, 1, 4, 0, 1, 0x8A, 8, 5, 0, 3, 0x8C, 2, 1, 0xB2, 0xFE,
     5, 1, 0, 1, 0x8E, 1, 0x21, 0xFE]
  let config : Config := { link := { maxPacketSize := 9 }, flowControl := { defaultCredit := 1 } }
  have hinput : input e hex none = .ok bytes := by decide +kernel
  have hconfig : loadValid e none = .ok config := by decide +kernel
  obtain ⟨decoded, replayed, hagree, hsame⟩ := replay_agrees_with_decode bytes
  obtain ⟨hdecode, hreplay⟩ := hsame e hex none hinput
  refine ⟨⟨bytes, config, hinput, hconfig⟩, decoded, replayed, hdecode, hreplay config hconfig,
    hagree.decoded.trans ?_, hagree.replayed.trans ?_⟩
  · decide +kernel
  · decide +kernel

end Command
end RailBus
