import RailBus.Receiver
import RailBus.Proofs.Routing
import Mathlib.Data.List.ReduceOption

/-!
# A link that is fed bytes

To a link bytes are the packets that the assembler makes of them. Bytes outside of packets are
counted, and do nothing else. The receiver tells the link of them at each reading and never falls
behind (`UpToDate`), so what a source yields between its bytes makes no difference
(`gaps_make_no_difference`).
-/

namespace RailBus

namespace Assembler

theorem noise_accept (a : Assembler) (b : UInt8) : (a.accept b).1.noise = a.noise := by
  unfold accept
  split <;> rfl

theorem noise_le_push (a : Assembler) (b : UInt8) : a.noise ≤ (a.push b).1.noise := by
  cases hphase : a.phase with
  | awaiting => by_cases hb : b = magic <;> simp [push, hphase, hb, openPacket]
  | escaped => by_cases hb : b = magic <;> simp [push, hphase, hb, openPacket, noise_accept]
  | inPacket =>
    by_cases hb : b = magic
    · by_cases hempty : a.body = [] <;> simp [push, hphase, hb, hempty, openPacket]
    · by_cases hmark : b = escapeMark <;>
        simp [push, hphase, hb, hmark, escapeMark_ne_magic, noise_accept]

theorem noise_le_pushAll (a : Assembler) (bs : Bytes) : a.noise ≤ (a.pushAll bs).1.noise := by
  induction bs generalizing a with
  | nil => exact Nat.le_refl _
  | cons b rest ih => exact (a.noise_le_push b).trans (ih (a.push b).1)

end Assembler

namespace Link

/-- The link has counted `n` more bytes outside of packets. -/
def addNoise (l : Link) (n : Nat) : Link := { l with noiseBytes := l.noiseBytes + n }

theorem addNoise_addNoise (l : Link) (n n' : Nat) :
    (l.addNoise n).addNoise n' = l.addNoise (n + n') := by
  simp only [addNoise, Nat.add_assoc]

theorem addNoise_eq_withPast (l : Link) (n : Nat) :
    l.addNoise n = l.withPast ⟨{ Stats.zero with noiseBytes := n }, []⟩ := by
  simp [addNoise, withPast, Flow.withPast, PacketWriter.withPast, Stats.zero, Nat.add_comm]

theorem handlePackets_addNoise (l : Link) (results : List Packet.Result) (n : Nat) :
    (l.addNoise n).handlePackets results = (l.handlePackets results).addNoise n := by
  rw [addNoise_eq_withPast, addNoise_eq_withPast, handlePackets_withPast]

theorem handlePackets_append (l : Link) (results results' : List Packet.Result) :
    l.handlePackets (results ++ results') = (l.handlePackets results).handlePackets results' :=
  List.foldl_append ..

/-! Packets are no noise. -/

theorem noiseBytes_receive (l : Link) (m : Message) :
    (l.receive m).noiseBytes = l.noiseBytes := by
  simp only [receive]
  split <;> rfl

theorem noiseBytes_foldl_receive (l : Link) (ms : List Message) :
    (ms.foldl receive l).noiseBytes = l.noiseBytes := by
  induction ms generalizing l with
  | nil => rfl
  | cons m rest ih => exact (ih (l.receive m)).trans (l.noiseBytes_receive m)

theorem noiseBytes_handlePacket (l : Link) (result : Packet.Result) :
    (l.handlePacket result).noiseBytes = l.noiseBytes := by
  cases result with
  | ok ms => exact noiseBytes_foldl_receive { l with packetsReceived := l.packetsReceived + 1 } ms
  | error e =>
    rw [handlePacket_error_counting]
    rfl

theorem noiseBytes_handlePackets (l : Link) (results : List Packet.Result) :
    (l.handlePackets results).noiseBytes = l.noiseBytes := by
  induction results generalizing l with
  | nil => rfl
  | cons result rest ih =>
    exact (ih (l.handlePacket result)).trans (l.noiseBytes_handlePacket result)

end Link

namespace Receiver

variable {r : Receiver}

/-- The link was told of all noise. -/
def UpToDate (r : Receiver) : Prop := r.noiseSeen = r.assembler.noise

theorem tellNoise_eq (r : Receiver) :
    r.tellNoise =
      { assembler := r.assembler
        link := r.link.addNoise (r.assembler.noise - r.noiseSeen)
        noiseSeen := r.assembler.noise } := by
  unfold tellNoise
  split
  case isTrue h => rw [h, Nat.sub_self, Link.addNoise, Nat.add_zero]
  case isFalse => rfl

/-- A reading gives the assembler a byte or nothing, and has the link told of all noise. -/
theorem poll_eq (r : Receiver) (reading : Option UInt8) :
    r.poll reading =
      { assembler := (r.assembler.pushAll reading.toList).1
        link := (r.link.handlePackets (r.assembler.pushAll reading.toList).2).addNoise
          ((r.assembler.pushAll reading.toList).1.noise - r.noiseSeen)
        noiseSeen := (r.assembler.pushAll reading.toList).1.noise } := by
  cases reading with
  | none => exact tellNoise_eq _
  | some b =>
    simp only [poll, tellNoise_eq, Option.toList_some, Assembler.pushAll_cons, Assembler.pushAll,
      List.append_nil]
    cases (r.assembler.push b).2 <;> rfl

theorem reduceOption_cons (reading : Option UInt8) (rest : List (Option UInt8)) :
    (reading :: rest).reduceOption = reading.toList ++ rest.reduceOption := by
  cases reading <;> rfl

/-- The packets are handled as they are completed, and what is not in a packet is counted. -/
theorem run_eq (h : r.UpToDate) (readings : List (Option UInt8)) :
    r.run readings =
      { assembler := (r.assembler.pushAll readings.reduceOption).1
        link := (r.link.handlePackets (r.assembler.pushAll readings.reduceOption).2).addNoise
          ((r.assembler.pushAll readings.reduceOption).1.noise - r.assembler.noise)
        noiseSeen := (r.assembler.pushAll readings.reduceOption).1.noise } := by
  induction readings generalizing r with
  | nil =>
    have hseen : r.noiseSeen = r.assembler.noise := h
    have hnone : r.assembler.pushAll ([] : List (Option UInt8)).reduceOption = (r.assembler, []) :=
      rfl
    rw [hnone, ← hseen, Nat.sub_self]
    rfl
  | cons reading rest ih =>
    have hpoll := poll_eq r reading
    have huptodate : (r.poll reading).UpToDate := by
      rw [hpoll]
      rfl
    have hfirst := r.assembler.noise_le_pushAll reading.toList
    have hrest := (r.assembler.pushAll reading.toList).1.noise_le_pushAll rest.reduceOption
    have hnoise : (r.assembler.pushAll reading.toList).1.noise - r.assembler.noise +
        (((r.assembler.pushAll reading.toList).1.pushAll rest.reduceOption).1.noise -
          (r.assembler.pushAll reading.toList).1.noise) =
        ((r.assembler.pushAll reading.toList).1.pushAll rest.reduceOption).1.noise -
          r.assembler.noise := by
      omega
    have hrun : r.run (reading :: rest) = (r.poll reading).run rest := rfl
    rw [hrun, ih huptodate, hpoll, h, reduceOption_cons, Assembler.pushAll_append,
      Link.handlePackets_append]
    simp only [Link.handlePackets_addNoise, Link.addNoise_addNoise, hnoise]

theorem feed_eq (h : r.UpToDate) (bs : Bytes) :
    r.feed bs =
      { assembler := (r.assembler.pushAll bs).1
        link := (r.link.handlePackets (r.assembler.pushAll bs).2).addNoise
          ((r.assembler.pushAll bs).1.noise - r.assembler.noise)
        noiseSeen := (r.assembler.pushAll bs).1.noise } := by
  have hbytes : (bs.map some).reduceOption = bs := by
    rw [List.reduceOption, List.filterMap_map]
    exact List.filterMap_some
  rw [feed, run_eq h, hbytes]

/-- To flow control bytes are the messages in the packets that are completed and can be read. -/
theorem feed_takes (r : Receiver) (bs : Bytes) :
    r.link.Takes ((Packet.arrivals (r.assembler.pushAll bs).2).map .receive) (r.feed bs).link := by
  induction bs generalizing r with
  | nil => exact Link.Takes.refl r.link
  | cons b rest ih =>
    have hpoll := poll_eq r (some b)
    obtain ⟨hflow, hwriter⟩ :=
      r.link.handlePackets_takes (r.assembler.pushAll (some b).toList).2
    have hfirst : r.link.Takes
        ((Packet.arrivals (r.assembler.pushAll [b]).2).map .receive) (r.poll (some b)).link := by
      rw [hpoll]
      exact ⟨hflow, hwriter⟩
    have hrest := ih (r.poll (some b))
    have hassembler : (r.poll (some b)).assembler = (r.assembler.pushAll [b]).1 := by
      rw [hpoll]
      rfl
    rw [hassembler] at hrest
    have hsplit : b :: rest = [b] ++ rest := rfl
    rw [hsplit, Assembler.pushAll_append, Packet.arrivals, List.flatMap_append, List.map_append]
    exact hfirst.trans hrest

theorem assembler_feed (r : Receiver) (bs : Bytes) :
    (r.feed bs).assembler = (r.assembler.pushAll bs).1 := by
  induction bs generalizing r with
  | nil => rfl
  | cons b rest ih =>
    have hfirst : (r.poll (some b)).assembler = (r.assembler.pushAll [b]).1 := by
      rw [poll_eq]
      rfl
    have hrest := ih (r.poll (some b))
    rw [hfirst] at hrest
    exact hrest

theorem config_feed (r : Receiver) (bs : Bytes) : (r.feed bs).link.config = r.link.config := by
  induction bs generalizing r with
  | nil => rfl
  | cons b rest ih =>
    have hfirst : (r.poll (some b)).link.config = r.link.config := by
      rw [poll_eq]
      exact r.link.config_handlePackets _
    exact (ih (r.poll (some b))).trans hfirst

/-- **Gaps in a source make no difference.** Whatever bytes and gaps a source has, a new link that
is fed from it becomes what it becomes when it is handed, one after the other, the packets that an
assembler makes of the bytes alone. Nodes, inboxes, packets and counters are the same, but that the
link has also counted as noise what the assembler has. So a gap may be put in or taken out anywhere,
be it inside an escaped byte. -/
theorem gaps_make_no_difference (config : Config) (sink : Sink)
    (readings : List (Option UInt8)) :
    let source : Receiver := { link := .new config sink }
    let heard := ({} : Assembler).pushAll readings.reduceOption
    (source.run readings).link =
        { (Link.new config sink).handlePackets heard.2 with noiseBytes := heard.1.noise } ∧
      (source.run readings).assembler = heard.1 ∧
      ∀ front back, source.run (front ++ none :: back) = source.run (front ++ back) := by
  intro source heard
  have huptodate : source.UpToDate := rfl
  have hrun := run_eq huptodate readings
  refine ⟨?_, ?_, ?_⟩
  · -- a new link has counted no noise, and packets are none
    have hcounted : ((Link.new config sink).handlePackets heard.2).noiseBytes = 0 :=
      (Link.new config sink).noiseBytes_handlePackets heard.2
    have hlink : (source.run readings).link =
        ((Link.new config sink).handlePackets heard.2).addNoise heard.1.noise :=
      congrArg Receiver.link hrun
    rw [hlink, Link.addNoise, hcounted, Nat.zero_add]
  · rw [hrun]
  · intro front back
    have hbytes : (front ++ none :: back).reduceOption = (front ++ back).reduceOption := by
      rw [List.reduceOption_append, List.reduceOption_append, List.reduceOption_cons_of_none]
    rw [run_eq huptodate, run_eq huptodate, hbytes]

/-- A gap inside an escaped byte, behind one byte of noise. -/
example :
    let r := ({ link := .new {} } : Receiver).run
      [some 7, none, some 0xFE, some 4, some 0, some 1, some 0x82, some 0xFD, none, none,
        some 0xDE, some 0x61, none, some 0xFE]
    r.link.flow.uplink.messages.map Message.payload = [[0xFE]] ∧ r.link.noiseBytes = 1 := by
  decide +kernel

end Receiver
end RailBus
