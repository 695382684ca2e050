import RailBus.CommandLine.Execute
import RailBus.Proofs.Assembler
import RailBus.Proofs.Spelling

/-!
# Encoding and decoding on the command line

What is printed for a message that was encoded says all of it, and given back as arguments it is
encoded to the same text.
-/

namespace RailBus

open CommandLine

namespace CommandLine

variable {s : Grammar} {r r' : Reader} {x : Argument} {flag value : String} {rest : List String}

/-- An option by its name waits for its value. -/
theorem read_name (htrailing : r.trailing = false)
    (hflag : flag.toList = '-' :: '-' :: x.name.toList) (hname : x.name.toList ≠ [])
    (hequals : '=' ∉ x.name.toList)
    (hx : s.options.find? (·.name == x.name) = some x) (htakes : x.kind.takesValue = true)
    (hsettle : r.settle = .ok r') : r.read s flag = .ok { r' with pending := some (x, none) } := by
  have hkept : ∀ c ∈ x.name.toList, (c != '=') = true := by
    intro c hc
    rw [bne_iff_ne]
    rintro rfl
    exact hequals hc
  have hbody : x.name.toList.takeWhile (· != '=') = x.name.toList :=
    List.takeWhile_eq_self_iff.2 hkept
  have hnone : x.name.toList.dropWhile (· != '=') = [] := List.dropWhile_eq_nil_iff.2 hkept
  rw [Reader.read, htrailing, hflag]
  simp only [Bool.false_eq_true, if_false]
  rw [Reader.long, hbody, hnone, String.ofList_toList, hx]
  simp only [htakes, if_true, Reader.valued, hsettle]
  rfl

theorem read_value (htrailing : r.trailing = false) (hpending : r.pending = some (x, none))
    (hdash : '-' ∉ value.toList) :
    r.read s value = .ok { r with pending := some (x, some value) } := by
  have hvalue : ∀ cs, value.toList ≠ '-' :: cs := by
    intro cs hcs
    exact hdash (by simp [hcs])
  rw [Reader.read, htrailing]
  simp only [Bool.false_eq_true, if_false]
  split
  case h_1 h => exact absurd h (hvalue _)
  case h_2 h => exact absurd h (hvalue _)
  case h_3 h => exact absurd h (hvalue _)
  case h_4 => rw [hpending]

/-- An option is read with the argument behind it as its value. -/
theorem readFrom_option (hs : s.subcommands = []) (htrailing : r.trailing = false)
    (hflag : flag.toList = '-' :: '-' :: x.name.toList) (hname : x.name.toList ≠ [])
    (hequals : '=' ∉ x.name.toList)
    (hx : s.options.find? (·.name == x.name) = some x) (htakes : x.kind.takesValue = true)
    (hsettle : r.settle = .ok r') (htrailing' : r'.trailing = false)
    (hdash : '-' ∉ value.toList) :
    s.readFrom r (flag :: value :: rest) =
      s.readFrom { r' with pending := some (x, some value) } rest := by
  have hread : ({ r' with pending := some (x, none) } : Reader).read s value =
      .ok { r' with pending := some (x, some value) } := read_value htrailing' rfl hdash
  rw [Grammar.readFrom, hs, read_name htrailing hflag hname hequals hx htakes hsettle]
  simp only [List.contains_nil, Bool.and_false, Bool.false_eq_true, if_false]
  rw [Grammar.readFrom, hs, hread]
  simp

end CommandLine

namespace Packet

/-- A message that may be sent is read back from a packet of its own. -/
theorem pushAll_frame_layout {m : Message} (h : m.contentLength ≤ 127) :
    (({} : Assembler).pushAll (frame m.layout)).2 = [.ok [m.received]] := by
  have hfits : ∀ m' ∈ [m], m'.fits = true := by
    intro m' hm'
    rw [List.mem_singleton.1 hm']
    exact decide_eq_true h
  have hread := Assembler.pushAll_frames [m.layout]
  have houtcome := outcome_layouts hfits
  have hroom : 1 + m.contentLength ≤ 511 := by omega
  simp only [List.flatMap_cons, List.flatMap_nil, List.append_nil, List.map_cons,
    List.map_nil] at hread houtcome
  rw [hread, houtcome, readBack]
  simp [hroom]

end Packet

namespace Command

/-- The text of a payload: hexadecimal digits in letters of either case, with white space around
them, or nothing at all. -/
def SpellsPayload (bs : Bytes) : Option String → Prop
  | none => bs = []
  | some text => ∃ before digits after, text.toList = before ++ digits ++ after ∧
      (∀ c ∈ before, Text.isBlank c = true) ∧ (∀ c ∈ after, Text.isBlank c = true) ∧
      Hex.Spells digits bs

variable {address type : String} {a : Address} {t : MessageType} {seq : UInt8} {bs : Bytes}
  {payload : Option String} {e : Environment}

theorem decodeChars_of_spells {text : String} (h : SpellsPayload bs (some text)) :
    Hex.decodeChars (Text.trim text.toList) = .ok bs := by
  obtain ⟨before, digits, after, htext, hbefore, hafter, hspells⟩ := h
  have hdigits : ∀ c ∈ digits, Text.isBlank c = false :=
    fun c hc => Text.isBlank_of_isVisible (hspells.mem hc).1
  rw [htext, Text.trim_eq hbefore hdigits hafter, hspells.decodeChars]

/-- Encoding reads four texts and packs the message they spell. -/
theorem encodeMessage_eq (ha : Address.parse address = .ok a)
    (ht : MessageType.parse? type = some t) (hp : SpellsPayload bs payload) :
    encodeMessage address type seq payload =
      ((Packet.encode [{ address := a, seq := seq, type := t, payload := bs }]).mapError
        CommandError.wire).map Hex.encode := by
  cases payload with
  | none =>
    obtain rfl : bs = [] := hp
    simp only [encodeMessage, ha, ht]
    rfl
  | some text =>
    simp only [encodeMessage, ha, ht, decodeChars_of_spells hp]
    rfl

theorem body_singleton (m : Message) : Packet.body [m] = m.encode.map (· ++ []) := by
  rw [Packet.body]
  cases m.encode <;> rfl

variable {m : Message}

theorem encode_singleton_of_fits (h : m.contentLength ≤ 127) :
    Packet.encode [m] = .ok (Packet.frame m.layout) := by
  rw [Packet.encode, body_singleton, Message.encode_of_fits (decide_eq_true h)]
  simp [Except.map]

theorem encode_singleton_of_too_large (h : 127 < m.contentLength) :
    Packet.encode [m] = .error (.messageTooLarge m.contentLength 127) := by
  have hfits : m.fits = false := decide_eq_false (Nat.not_le.2 h)
  rw [Packet.encode, body_singleton, Message.encode_of_not_fits hfits]
  rfl

/-- Hexadecimal text of a packet is decoded as the line of its message, wherever white space was
put into it. -/
theorem decode_of_fits {spaced : String} (h : m.contentLength ≤ 127)
    (hspaced : spaced.toList.filter (fun c => !Text.isBlank c) =
      (Hex.encode (Packet.frame m.layout)).toList) :
    execute e (.decode (some spaced) none false) = .ok m.line := by
  have hinput : input e (some spaced) none = .ok (Packet.frame m.layout) := by
    have hspells := Hex.spells_encode (Packet.frame m.layout)
    rw [← hspaced] at hspells
    rw [input, hspells.decodeChars]
    rfl
  have hlines : decodeLines false (Packet.frame m.layout) = [m.line] := by
    rw [decodeLines, Packet.pushAll_frame_layout h]
    rfl
  simp only [execute, hinput, Except.map, hlines, lines, String.intercalate_singleton]

/-! ## Arguments -/

def addressArgument : Argument := { name := "address", letter := some 'a', kind := .text }

def typeArgument : Argument :=
  { name := "type", letter := some 't', kind := .text, required := true }

def seqArgument : Argument := { name := "seq", letter := some 's', kind := .byte }

def payloadArgument : Argument := { name := "payload", letter := some 'p', kind := .text }

/-- What a message is asked for by: the texts of its parts. -/
def encodeArguments (address type : String) (seq : UInt8) (payload : Option String) :
    List String :=
  ["--address", address, "--type", type, "--seq", toString seq.toNat] ++
    payload.toList.flatMap fun text => ["--payload", text]

/-- The number is checked when what comes behind it is looked at. -/
theorem settle_seq (address type : String) (seq : UInt8) :
    Reader.settle
        { found := [("type", type), ("address", address)]
          pending := some (seqArgument, some (toString seq.toNat)) } =
      .ok { found := [("seq", toString seq.toNat), ("type", type), ("address", address)] } := by
  have hseq : Text.integer? (toString seq.toNat).toList = some (seq.toNat : Int) :=
    Text.integer?_text seq
  have hbound := seq.toNat_lt
  have hrange : (0 : Int) ≤ seq.toNat ∧ (seq.toNat : Int) < 256 := by omega
  have hcheck : seqArgument.kind.check (toString seq.toNat) = .ok () := by
    simp only [seqArgument, Kind.check, hseq, if_pos hrange]
  simp only [Reader.settle, Reader.enter, hcheck]
  rfl

/-- Three of the four texts are always given. -/
theorem readFrom_encodeArguments {address type : String} (seq : UInt8) (payload : Option String)
    (ha : '-' ∉ address.toList) (ht : '-' ∉ type.toList) :
    encodeGrammar.readFrom {} (encodeArguments address type seq payload) =
      encodeGrammar.readFrom
        { found := [("type", type), ("address", address)]
          pending := some (seqArgument, some (toString seq.toNat)) }
        (payload.toList.flatMap fun text => ["--payload", text]) := by
  have hseq : '-' ∉ (toString seq.toNat).toList := Text.dash_notMem_decimal seq.toNat
  rw [encodeArguments, List.cons_append, List.cons_append,
    readFrom_option (x := addressArgument) rfl rfl rfl (by decide) (by decide) rfl rfl rfl rfl ha,
    List.cons_append, List.cons_append,
    readFrom_option (x := typeArgument) rfl rfl rfl (by decide) (by decide) rfl rfl rfl rfl ht,
    List.cons_append, List.cons_append,
    readFrom_option (x := seqArgument) rfl rfl rfl (by decide) (by decide) rfl rfl rfl rfl hseq]
  rfl

theorem matchesOf_encodeArguments {address type : String} (seq : UInt8) (payload : Option String)
    (ha : '-' ∉ address.toList) (ht : '-' ∉ type.toList)
    (hp : ∀ text ∈ payload, '-' ∉ text.toList) :
    matchesOf encodeGrammar (encodeArguments address type seq payload) =
      .ok ((payload.toList.map fun text => ("payload", text)) ++
        [("seq", toString seq.toNat), ("type", type), ("address", address)]) := by
  rw [matchesOf, Grammar.read, readFrom_encodeArguments seq payload ha ht]
  cases payload with
  | none =>
    simp only [Grammar.readFrom, Option.toList_none, List.flatMap_nil, Reader.finish, settle_seq]
    rfl
  | some text =>
    simp only [Option.toList_some, List.flatMap_cons, List.flatMap_nil, List.append_nil]
    rw [readFrom_option (x := payloadArgument) rfl rfl rfl (by decide) (by decide) rfl rfl
      (settle_seq address type seq) rfl (hp text rfl)]
    rfl

theorem sequenceNumber_of_lookup {found : Matches}
    (h : found.lookup "seq" = some (toString seq.toNat)) : sequenceNumber found = seq := by
  simp only [sequenceNumber, h, Option.bind_some, Text.integer?_text, Int.toNat_natCast,
    UInt8.ofNat_toNat]

/-- The arguments ask for the message that they are the texts of. -/
theorem ofArguments_encodeArguments {address type : String} (seq : UInt8) (payload : Option String)
    (ha : '-' ∉ address.toList) (ht : '-' ∉ type.toList)
    (hp : ∀ text ∈ payload, '-' ∉ text.toList) :
    ofArguments ("encode" :: encodeArguments address type seq payload) =
      .ok (.encode address type seq payload) := by
  have hsub : ofArguments ("encode" :: encodeArguments address type seq payload) =
      ofSubcommand "encode" (encodeArguments address type seq payload) := rfl
  rw [hsub, ofSubcommand, matchesOf_encodeArguments seq payload ha ht hp]
  cases payload with
  | none =>
    simp only [Except.map]
    rw [sequenceNumber_of_lookup rfl]
    rfl
  | some text =>
    simp only [Except.map]
    rw [sequenceNumber_of_lookup rfl]
    rfl

theorem spellsPayload_encode (bs : Bytes) : SpellsPayload bs (some (Hex.encode bs)) :=
  ⟨[], (Hex.encode bs).toList, [], by simp, by simp, by simp, Hex.spells_encode bs⟩

/-- What is printed of a payload, if anything. -/
def payloadText (bs : Bytes) : Option String :=
  if bs = [] then none else some (Hex.encode bs)

theorem spellsPayload_payloadText (bs : Bytes) : SpellsPayload bs (payloadText bs) := by
  unfold payloadText
  split
  case isTrue h => exact h
  case isFalse => exact spellsPayload_encode bs

theorem dash_notMem_payloadText {text : String} (h : payloadText bs = some text) :
    '-' ∉ text.toList := by
  unfold payloadText at h
  split at h
  · cases h
  · rw [← Option.some.inj h, Hex.encode, String.toList_ofList]
    intro hdash
    obtain ⟨b, -, hb⟩ := List.mem_flatMap.1 hdash
    exact Hex.notMem_byteChars (by decide) hb

/-- **Encoding and decoding are inverse.** Whatever spellings of an address, a type and a payload
are accepted, a message whose length byte would be at most 127 is encoded, and any other is refused
for its size. The hexadecimal text, with white space anywhere in it, is decoded as one line with the
address, the number, the type and the payload, if there is any, each in the one way it is printed;
and these texts are encoded as the same hexadecimal text, also where they are given as arguments. -/
theorem encode_decode_encode (ha : Address.parse address = .ok a)
    (ht : MessageType.parse? type = some t) (hp : SpellsPayload bs payload) (seq : UInt8) :
    (a.stackLength + 2 + bs.length ≤ 127 →
      ∃ text, ∀ e : Environment,
        execute e (.encode address type seq payload) = .ok text ∧
        (∀ spaced : String,
          spaced.toList.filter (fun c => !Text.isBlank c) = text.toList →
          execute e (.decode (some spaced) none false) =
            .ok (s!"addr={a.text} seq={seq.toNat} type={t.text}" ++
              if bs.isEmpty then "" else " payload=" ++ Hex.encode bs)) ∧
        execute e (.encode a.text t.text seq (payloadText bs)) = .ok text ∧
        ∃ again,
          ofArguments ("encode" :: encodeArguments a.text t.text seq (payloadText bs)) = .ok again ∧
          execute e again = .ok text) ∧
      (127 < a.stackLength + 2 + bs.length → ∀ e : Environment,
        execute e (.encode address type seq payload) =
          .error (.wire (.messageTooLarge (a.stackLength + 2 + bs.length) 127))) := by
  have hencode : encodeMessage address type seq payload = _ := encodeMessage_eq ha ht hp
  have hagain : encodeMessage a.text t.text seq (payloadText bs) = _ :=
    encodeMessage_eq a.parse_text t.parse?_text (spellsPayload_payloadText bs)
  generalize hm : ({ address := a, seq := seq, type := t, payload := bs } : Message) = m
    at hencode hagain
  have hlength : a.stackLength + 2 + bs.length = m.contentLength := by
    rw [← hm]
    rfl
  rw [hlength]
  constructor
  · intro hfits
    rw [encode_singleton_of_fits hfits] at hencode hagain
    have harguments := ofArguments_encodeArguments seq (payloadText bs) a.dash_notMem_text
      t.dash_notMem_text fun text htext => dash_notMem_payloadText htext
    refine ⟨Hex.encode (Packet.frame m.layout), fun e =>
      ⟨hencode, fun spaced hspaced => ?_, hagain, _, harguments, hagain⟩⟩
    rw [decode_of_fits hfits hspaced, ← hm]
    rfl
  · intro hlarge e
    rw [encode_singleton_of_too_large hlarge] at hencode
    exact hencode

/-- A stall message whose parts are spelled in unusual ways, with bytes that have to be stuffed,
and a message that is one byte too long. -/
theorem odd_spelling_decoded :
    (∀ e : Environment,
      execute e (.encode " 1 . +02 " " Stall" 255 (some " fEFd ")) =
          .ok "fe07010200ff8efddefddd32fe" ∧
        execute e (.decode (some "fe 07 010200 ff 8e fdde fddd\n32 f e") none false) =
          .ok "addr=1.2 seq=255 type=STALL payload=fefd") ∧
      ∀ e : Environment,
        execute e (.encode "" "0x07" 1 (some (Hex.encode (List.replicate 125 0)))) =
          .error (.wire (.messageTooLarge 128 127)) := by
  let a : Address := ⟨[1, 2], by decide, by simp⟩
  have haddress : Address.parse " 1 . +02 " = .ok a := by decide +kernel
  have htype : MessageType.parse? " Stall" = some .stall := by decide +kernel
  have hpayload : SpellsPayload [0xFE, 0xFD] (some " fEFd ") :=
    ⟨[' '], ['f', 'E', 'F', 'd'], [' '], rfl, List.forall_mem_singleton.2 rfl,
      List.forall_mem_singleton.2 rfl, by decide⟩
  obtain ⟨text, htext⟩ := (encode_decode_encode haddress htype hpayload 255).1 (by decide)
  have hpacket : encodeMessage " 1 . +02 " " Stall" 255 (some " fEFd ") =
      .ok "fe07010200ff8efddefddd32fe" := by
    decide +kernel
  constructor
  · intro e
    obtain ⟨hencode, hdecode, -⟩ := htext e
    obtain rfl : text = "fe07010200ff8efddefddd32fe" :=
      Except.ok.inj (hencode.symm.trans hpacket)
    refine ⟨hencode, (hdecode _ (by decide +kernel)).trans (congrArg Except.ok ?_)⟩
    decide +kernel
  · have hlength :
        Address.root.stackLength + 2 + (List.replicate 125 (0 : UInt8)).length = 128 := by
      rw [List.length_replicate]
      rfl
    have hroot : Address.parse "" = .ok .root := by decide +kernel
    have hping : MessageType.parse? "0x07" = some ⟨0x07⟩ := by decide +kernel
    have hpayload := spellsPayload_encode (List.replicate 125 0)
    have hlarge := (encode_decode_encode hroot hping hpayload 1).2
    rw [hlength] at hlarge
    exact hlarge (by decide)

end Command
end RailBus
