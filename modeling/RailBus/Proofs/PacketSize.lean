import RailBus.Proofs.Credit
import RailBus.Proofs.Packing

/-!
# The size of packets

A message is measured once, when it is accepted, with the number that takes the most room. It is
sent later, under another number and perhaps behind other messages, yet no packet is larger than
configured (`length_le_of_mem_attempts`): whatever is transmitted fits a packet by itself, and a
body is put into a packet only where it fits behind the others.
-/

namespace RailBus

/-! ## What is transmitted fits a packet -/

theorem escapedLength_singleton_le (b : UInt8) : escapedLength [b] ≤ escapedLength [magic] := by
  have hmagic : escapedLength [magic] = 2 := by decide
  rw [hmagic]
  simp only [escapedLength]
  split <;> omega

/-- No number takes more room than the one a request is measured with. -/
theorem Request.Fits.framedLength_le {limit : Nat} {a : Address} {r : Request}
    (h : r.Fits limit a) (seq : UInt8) : framedLength (r.toMessage a seq).layout ≤ limit := by
  have hsplit : ∀ s : UInt8, (r.toMessage a s).layout =
      (UInt8.ofNat (r.toMessage a magic).contentLength :: a.stack) ++
        ([s] ++ r.type.code :: r.payload) := by
    intro s
    rfl
  have hmeasured := h.2
  have hseq := escapedLength_singleton_le seq
  simp only [framedLength, hsplit, escapedLength_append] at hmeasured ⊢
  omega

namespace Node

variable {limit : Nat} {a : Address} {n : Node}

theorem mem_numbered {seq : UInt8} {rs : List Request} {m : Message}
    (h : m ∈ numbered a seq rs) : ∃ r ∈ rs, ∃ s, m = r.toMessage a s := by
  induction rs generalizing seq with
  | nil => cases h
  | cons r rest ih =>
    rcases List.mem_cons.1 h with rfl | h
    · exact ⟨r, by simp, _, rfl⟩
    · obtain ⟨r', hr', s, hm⟩ := ih h
      exact ⟨r', List.mem_cons_of_mem _ hr', s, hm⟩

theorem framedLength_le_of_mem_meet {o : Occurrence} (hn : n.PendingFit limit a)
    (ho : o.Permitted limit a) {m : Message} (hm : m ∈ (n.meet a o).2) :
    framedLength m.layout ≤ limit := by
  rw [meet_eq hn ho] at hm
  obtain ⟨r, hr, seq, rfl⟩ := mem_numbered hm
  exact (fits_of_mem_regulate hn ho (List.mem_append_left _ hr)).framedLength_le seq

theorem framedLength_le_of_mem_meetAll {os : List Occurrence} (hn : n.PendingFit limit a)
    (ho : ∀ o ∈ os, o.Permitted limit a) {m : Message} (hm : m ∈ (n.meetAll a os).2) :
    framedLength m.layout ≤ limit := by
  induction os generalizing n with
  | nil => cases hm
  | cons o rest ih =>
    rw [meetAll_cons, List.mem_append] at hm
    rcases hm with hm | hm
    · exact framedLength_le_of_mem_meet hn (ho o (by simp)) hm
    · exact ih (pendingFit_meet hn (ho o (by simp))) (fun o h => ho o (List.mem_cons_of_mem _ h)) hm

end Node

namespace Flow

/-- From an empty table on, whatever is put into packets fits one. -/
theorem framedLength_le_of_mem_run {f : Flow} (is : List Input)
    (hempty : ∀ a, f.table.nodes.find? a = none) {m : Message}
    (hm : m ∈ (f.run is).2.appended) : framedLength m.layout ≤ f.limit := by
  have hsent : m ∈ sentTo m.address (f.run is).2.appended := List.mem_filter.2 ⟨hm, by simp⟩
  rcases run_unknown is (hempty m.address) with ⟨-, hnone, -⟩ | ⟨stalled, os, hos⟩
  · rw [hnone] at hsent
    cases hsent
  · rw [hos.sent] at hsent
    exact Node.framedLength_le_of_mem_meetAll (Node.pendingFit_fresh _ _ _ _) hos.permitted hsent

theorem Reached.framedLength_le {settings : Nat × UInt8 × Bool} {f : Flow}
    (h : f.Reached settings) {is : List Input} {m : Message}
    (hm : m ∈ (f.run is).2.appended) : framedLength m.layout ≤ settings.1 := by
  obtain ⟨f₀, is₀, hempty, hsettings, rfl⟩ := h
  have hlimit : f₀.limit = settings.1 := congrArg Prod.fst hsettings
  rw [← hlimit]
  refine framedLength_le_of_mem_run (is₀ ++ is) hempty ?_
  rw [run_append]
  exact List.mem_append_right _ hm

end Flow

/-! ## What is planned fits a packet -/

namespace Plan

/-- Every packet fits the limit, whatever its checksum. -/
structure Fits (limit : Nat) (p : Plan) : Prop where
  offered : ∀ bodies ∈ p.offered, framedLength bodies.flatten ≤ limit
  current : p.current ≠ [] → framedLength p.current.flatten ≤ limit

variable {limit : Nat} {p : Plan}

theorem fits_new (limit : Nat) : Fits limit {} := by
  constructor <;> simp [offered]

theorem Fits.finish (h : p.Fits limit) (fate : Fate) : (p.finish fate).Fits limit := by
  unfold Plan.finish
  split
  case isTrue => exact h
  case isFalse hne =>
    refine ⟨fun bodies hmem => ?_, fun hcurrent => absurd rfl hcurrent⟩
    cases fate with
    | discarded => exact h.offered bodies (by simpa [Plan.offered] using hmem)
    | offered =>
      have hsplit : bodies ∈ p.offered ∨ bodies = p.current := by
        simpa [Plan.offered, List.map_append, List.filter_append] using hmem
      rcases hsplit with hmem | rfl
      · exact h.offered bodies hmem
      · exact h.current hne

theorem Fits.append {body : Bytes} (h : p.Fits limit) (hbody : framedLength body ≤ limit)
    (hroom : p.current ≠ [] →
      1 + escapedLength p.current.flatten + escapedLength body + 3 ≤ limit) :
    Fits limit { p with current := p.current ++ [body] } := by
  refine ⟨h.offered, fun _ => ?_⟩
  by_cases hempty : p.current = []
  · simpa [hempty] using hbody
  · have hlength := hroom hempty
    simp only [List.flatten_append, List.flatten_singleton, framedLength, escapedLength_append,
      packetTrailerMax]
    omega

theorem Fits.step (h : p.Fits limit) {call : PacketWriter.Call}
    (hcall : ∀ body ∈ call.body?, framedLength body ≤ limit) : (p.step limit call).Fits limit := by
  cases call with
  | append body =>
    have hbody := hcall body rfl
    simp only [Plan.step]
    split
    case isTrue =>
      exact (h.finish .offered).append hbody fun hne => absurd (p.current_finish .offered) hne
    case isFalse hfull =>
      refine h.append hbody fun hne => ?_
      simp only [isFullFor, hne, ne_eq, not_false_eq_true, decide_true, Bool.true_and,
        decide_eq_true_eq] at hfull
      omega
  | flush => exact h.finish .offered
  | discard => exact h.finish .discarded

theorem Fits.steps (h : p.Fits limit) {calls : List PacketWriter.Call}
    (hcalls : ∀ body ∈ calls.filterMap PacketWriter.Call.body?, framedLength body ≤ limit) :
    (p.steps limit calls).Fits limit := by
  induction calls generalizing p with
  | nil => exact h
  | cons call rest ih =>
    have hcall : ∀ body ∈ call.body?, framedLength body ≤ limit := fun body hbody =>
      hcalls body (List.mem_filterMap.2 ⟨call, by simp, hbody⟩)
    refine ih (h.step hcall) fun body hbody => hcalls body ?_
    obtain ⟨other, hother, hbody⟩ := List.mem_filterMap.1 hbody
    exact List.mem_filterMap.2 ⟨other, List.mem_cons_of_mem _ hother, hbody⟩

end Plan

theorem length_frame_le (body : Bytes) : (Packet.frame body).length ≤ framedLength body := by
  have hcrc := escapedLength_singleton_le (crc8 body)
  have hmagic : escapedLength [magic] = 2 := by decide
  simp only [Packet.frame, List.length_append, List.length_cons, List.length_nil, length_escape,
    framedLength, packetTrailerMax]
  omega

namespace PacketWriter

/-- From `w` a writer comes to `w'` by calls with which only bodies that fit a packet are
appended. -/
def Packs (limit : Nat) (w w' : PacketWriter) : Prop :=
  ∃ calls, w' = w.performAll calls ∧
    ∀ body ∈ calls.filterMap Call.body?, framedLength body ≤ limit

variable {limit : Nat} {w w' w'' : PacketWriter}

theorem Packs.trans (h : Packs limit w w') (h' : Packs limit w' w'') : Packs limit w w'' := by
  obtain ⟨calls, rfl, hcalls⟩ := h
  obtain ⟨calls', rfl, hcalls'⟩ := h'
  refine ⟨calls ++ calls', by simp [performAll], fun body hbody => ?_⟩
  rw [List.filterMap_append, List.mem_append] at hbody
  rcases hbody with hbody | hbody
  · exact hcalls body hbody
  · exact hcalls' body hbody

theorem packs_perform (w : PacketWriter) (call : Call)
    (h : ∀ body ∈ call.body?, framedLength body ≤ limit) : Packs limit w (w.perform call) := by
  refine ⟨[call], rfl, fun body hbody => ?_⟩
  obtain ⟨other, hother, hbody⟩ := List.mem_filterMap.1 hbody
  exact h body (List.mem_singleton.1 hother ▸ hbody)

theorem Appends.packs {bodies : List Bytes} (h : w.Appends bodies w')
    (hbodies : ∀ body ∈ bodies, framedLength body ≤ limit) : Packs limit w w' := by
  induction h with
  | refl => exact ⟨[], rfl, by simp⟩
  | @append bodies w' body _ ih =>
    have hlast : Packs limit w' (w'.append body) :=
      w'.packs_perform (.append body) (by simpa [Call.body?] using hbodies body (by simp))
    exact (ih fun b hb => hbodies b (by simp [hb])).trans hlast
  | @flush bodies w' _ ih =>
    exact (ih hbodies).trans (w'.packs_perform .flush (by simp [Call.body?]))

/-- A new writer that is given nothing larger than a packet offers nothing larger. -/
theorem Packs.length_le {outcome : Nat → Bool} (h : Packs limit (fresh limit outcome) w)
    {packet : Bytes} {ok : Bool} (hmem : (packet, ok) ∈ w.sink.attempts) :
    packet.length ≤ limit := by
  obtain ⟨calls, rfl, hcalls⟩ := h
  have hattempts := ((follows_fresh limit outcome).performAll calls).attempts
  rw [hattempts, List.mem_map] at hmem
  obtain ⟨⟨bodies, i⟩, hbodies, heq⟩ := hmem
  cases heq
  have hfits := ((Plan.fits_new limit).steps hcalls).offered bodies
    (List.fst_mem_of_mem_zipIdx hbodies)
  exact Nat.le_trans (length_frame_le _) hfits

end PacketWriter

namespace Link

variable {settings : Nat × UInt8 × Bool} {l : Link}

theorem packs_of_takes {l' : Link} {is : List Flow.Input} (h : l.flow.Reached settings)
    (hl : l.Takes is l') : PacketWriter.Packs settings.1 l.writer l'.writer := by
  refine hl.writer.packs fun body hbody => ?_
  obtain ⟨m, hm, rfl⟩ := List.mem_map.1 hbody
  exact h.framedLength_le hm

theorem packs_step (h : l.flow.Reached settings) (e : Event) :
    PacketWriter.Packs settings.1 l.writer (l.step e).writer := by
  cases e with
  | traffic t => exact packs_of_takes h (l.carry_takes t)
  | disable => exact packs_of_takes h l.sendUnchecked_takes
  | reset => exact l.writer.packs_perform .discard (by simp [PacketWriter.Call.body?])

theorem packs_run (h : l.flow.Reached settings) (es : List Event) :
    PacketWriter.Packs settings.1 l.writer (l.run es).writer := by
  induction es generalizing l with
  | nil => exact ⟨[], rfl, by simp⟩
  | cons e rest ih => exact (packs_step h e).trans (ih (reached_step h e))

/-- **No packet is larger than configured.** Whatever happens to a link and whichever writes fail,
every packet that its sink is offered keeps the size that is configured, be that a valid one or
not. -/
theorem length_le_of_mem_attempts {config : Config} {outcome : Nat → Bool} {es : List Event}
    {packet : Bytes} {ok : Bool}
    (h : (packet, ok) ∈
      ((Link.new config { accepts := outcome }).run es).writer.sink.attempts) :
    packet.length ≤ config.link.maxPacketSize := by
  have hreached : (Link.new config { accepts := outcome }).flow.Reached
      (Link.new config { accepts := outcome }).flow.settings := reached_new config _ []
  exact (packs_run hreached es).length_le h

/-- Packets of 17 bytes, and nodes that are granted one credit. -/
def tight : Config := { link := { maxPacketSize := 17 }, flowControl := { defaultCredit := 1 } }

/-- Two commands, of which the second waits until the node has answered the first, and a flush. -/
def commandsAndAnswer : List Event :=
  [.traffic (.send child { command with payload := [magic] }),
    .traffic (.send child { command with payload := [6] }),
    .traffic (.handle (.ok [{ address := child, type := ⟨0xB0⟩ }])), .traffic .flush]

/-- The packet holds both commands and a checksum of two bytes, and no byte more would fit. -/
theorem packet_of_full_size :
    ∃ packet,
      (packet, true) ∈ ((Link.new tight { accepts := fun _ => true }).run
        commandsAndAnswer).writer.sink.attempts ∧
      packet.length = 17 ∧ packet.length ≤ tight.link.maxPacketSize := by
  have h : ([0xFE, 5, 1, 0, 1, 0x30, 0xFD, 0xDE, 5, 1, 0, 2, 0x30, 6, 0xFD, 0xDE, 0xFE], true) ∈
      ((Link.new tight { accepts := fun _ => true }).run
        commandsAndAnswer).writer.sink.attempts := by
    decide +kernel
  exact ⟨_, h, rfl, length_le_of_mem_attempts h⟩

end Link
end RailBus
