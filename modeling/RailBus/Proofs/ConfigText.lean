import RailBus.CommandLine.Execute
import RailBus.Proofs.Documents
import RailBus.Proofs.Files

/-!
# Configurations as texts

A configuration is read back from the text it is written as. Whatever is loaded can be written so;
and what is printed or saved is the configuration that was loaded.
-/

namespace RailBus

open Yaml (Section Key wordNode)
open Yaml.Document (field fields_words natural_word boolean_word lt_of_natural of_field)

/-! ## Sections of a configuration -/

namespace LinkConfig

/-- The settings lie in the 64 bits in which they are counted. -/
structure Fits (c : LinkConfig) : Prop where
  maxPacketSize : c.maxPacketSize < wordBound
  flushInterval : c.flushIntervalMs < wordBound
  receivePollInterval : c.receivePollIntervalMs < wordBound

def toSection (c : LinkConfig) : Section where
  name := "link"
  fields := [("max_packet_size", c.maxPacketSize.repr),
    ("flush_interval_ms", c.flushIntervalMs.repr),
    ("receive_poll_interval_ms", c.receivePollIntervalMs.repr)]

theorem chars_toSection (c : LinkConfig) :
    (c.yamlLines.map (· ++ "\n")).flatMap String.toList = c.toSection.chars := by
  have htext : ∀ s : String, toString s = s := fun _ => rfl
  simp [yamlLines, toSection, Section.chars, Yaml.indented, Yaml.fieldChars, htext]

theorem plain_toSection (c : LinkConfig) : c.toSection.Plain where
  name := (by decide : Key "link")
  nonempty := by simp [toSection]
  fields := by
    have hkeys : Key "max_packet_size" ∧ Key "flush_interval_ms" ∧
        Key "receive_poll_interval_ms" := by decide
    simp [toSection, Yaml.plain_natural, hkeys]

theorem ofYaml_toSection {c : LinkConfig} (d : Yaml.Document) (h : c.Fits) :
    ofYaml d c.toSection.node.2 = .ok c := by
  have hfields := c.toSection.fields_node d (by simp [toSection])
  simp only [toSection, Section.node, List.map_cons, List.map_nil] at hfields
  simp only [ofYaml, toSection, Section.node, List.map_cons, List.map_nil, hfields]
  simp [bind, Except.bind, field, List.lookup_cons, natural_word, h.maxPacketSize, h.flushInterval,
    h.receivePollInterval, pure, Except.pure]

end LinkConfig

namespace FlowControlConfig

def toSection (c : FlowControlConfig) : Section where
  name := "flow_control"
  fields := [("default_credit", c.defaultCredit.toNat.repr),
    ("honor_reported_capacity", toString c.honorReportedCapacity)]

theorem chars_toSection (c : FlowControlConfig) :
    (c.yamlLines.map (· ++ "\n")).flatMap String.toList = c.toSection.chars := by
  have htext : ∀ s : String, toString s = s := fun _ => rfl
  simp [yamlLines, toSection, Section.chars, Yaml.indented, Yaml.fieldChars, htext]

theorem plain_toSection (c : FlowControlConfig) : c.toSection.Plain where
  name := (by decide : Key "flow_control")
  nonempty := by simp [toSection]
  fields := by
    have hkeys : Key "default_credit" ∧ Key "honor_reported_capacity" := by decide
    simp [toSection, Yaml.plain_natural, Yaml.plain_boolean, hkeys]

theorem ofYaml_toSection (c : FlowControlConfig) (d : Yaml.Document) :
    ofYaml d c.toSection.node.2 = .ok c := by
  have hfields := c.toSection.fields_node d (by simp [toSection])
  simp only [toSection, Section.node, List.map_cons, List.map_nil] at hfields
  simp only [ofYaml, toSection, Section.node, List.map_cons, List.map_nil, hfields]
  simp [bind, Except.bind, Except.map, field, List.lookup_cons,
    natural_word c.defaultCredit.toNat_lt, boolean_word, pure, Except.pure]

end FlowControlConfig

namespace SessionConfig

def toSection (c : SessionConfig) : Section where
  name := "session"
  fields := [("handshake", toString c.handshake),
    ("handshake_timeout_ms", c.handshakeTimeoutMs.repr)]

theorem chars_toSection (c : SessionConfig) :
    (c.yamlLines.map (· ++ "\n")).flatMap String.toList = c.toSection.chars := by
  have htext : ∀ s : String, toString s = s := fun _ => rfl
  simp [yamlLines, toSection, Section.chars, Yaml.indented, Yaml.fieldChars, htext]

theorem plain_toSection (c : SessionConfig) : c.toSection.Plain where
  name := (by decide : Key "session")
  nonempty := by simp [toSection]
  fields := by
    have hkeys : Key "handshake" ∧ Key "handshake_timeout_ms" := by decide
    simp [toSection, Yaml.plain_natural, Yaml.plain_boolean, hkeys]

theorem ofYaml_toSection {c : SessionConfig} (d : Yaml.Document)
    (htimeout : c.handshakeTimeoutMs < wordBound) : ofYaml d c.toSection.node.2 = .ok c := by
  have hfields := c.toSection.fields_node d (by simp [toSection])
  simp only [toSection, Section.node, List.map_cons, List.map_nil] at hfields
  simp only [ofYaml, toSection, Section.node, List.map_cons, List.map_nil, hfields]
  simp [bind, Except.bind, field, List.lookup_cons, natural_word, htimeout, boolean_word, pure,
    Except.pure]

end SessionConfig

/-! ## Whole configurations -/

namespace Config

def toSections (c : Config) : List Section :=
  [c.link.toSection, c.flowControl.toSection, c.session.toSection]

theorem toYaml_eq (c : Config) :
    c.toYaml = String.ofList (c.toSections.flatMap Section.chars) := by
  refine String.toList_injective ?_
  simp only [toYaml, String.toList_join, String.toList_ofList, List.map_append,
    List.flatMap_append, c.link.chars_toSection, c.flowControl.chars_toSection,
    c.session.chars_toSection]
  simp [toSections]

theorem plain_of_mem_toSections (c : Config) : ∀ s ∈ c.toSections, s.Plain := by
  simp [toSections, c.link.plain_toSection, c.flowControl.plain_toSection,
    c.session.plain_toSection]

structure Fits (c : Config) : Prop where
  link : c.link.Fits
  handshakeTimeout : c.session.handshakeTimeoutMs < wordBound

theorem ofDocument_toSections {c : Config} (h : c.Fits) :
    ofDocument { root := .mapping (c.toSections.map Section.node) } = .ok c := by
  have hfields := fields_words (d := { root := .mapping (c.toSections.map Section.node) })
    [("link", c.link.toSection.node.2), ("flow_control", c.flowControl.toSection.node.2),
      ("session", c.session.toSection.node.2)] (by simp)
  rw [ofDocument]
  refine (congrArg (· >>= _) hfields).trans ?_
  simp [bind, Except.bind, field, List.lookup_cons, LinkConfig.ofYaml_toSection _ h.link,
    FlowControlConfig.ofYaml_toSection, SessionConfig.ofYaml_toSection _ h.handshakeTimeout, pure,
    Except.pure]

/-- A configuration is read back from the text it is written as. -/
theorem ofYaml_toYaml {c : Config} (h : c.Fits) : ofYaml c.toYaml = .ok c := by
  have hdocument := Yaml.document_sections c.plain_of_mem_toSections (by simp [toSections])
  rw [ofYaml, toYaml_eq, hdocument]
  simp [ofDocument_toSections h, Except.mapError]

end Config

/-! ## What is loaded -/

theorem LinkConfig.fits_of_ofYaml {d : Yaml.Document} {n : Yaml.Node} {c : LinkConfig}
    (h : ofYaml d n = .ok c) : c.Fits := by
  simp only [ofYaml, bind_eq_ok] at h
  obtain ⟨found, -, size, hsize, flush, hflush, poll, hpoll, heq⟩ := h
  cases heq
  exact ⟨of_field (p := (· < wordBound)) (by decide) lt_of_natural hsize,
    of_field (p := (· < wordBound)) (by decide) lt_of_natural hflush,
    of_field (p := (· < wordBound)) (by decide) lt_of_natural hpoll⟩

theorem SessionConfig.timeout_lt_of_ofYaml {d : Yaml.Document} {n : Yaml.Node} {c : SessionConfig}
    (h : ofYaml d n = .ok c) : c.handshakeTimeoutMs < wordBound := by
  simp only [ofYaml, bind_eq_ok] at h
  obtain ⟨found, -, handshake, -, timeout, htimeout, heq⟩ := h
  cases heq
  exact of_field (p := (· < wordBound)) (by decide) lt_of_natural htimeout

theorem Environment.natural_lt (e : Environment) (name : String) {bound fallback : Nat}
    (h : fallback < bound) : e.natural name bound fallback < bound := by
  unfold natural
  cases hread : (e.lookup? name).bind fun text => Text.natural? 10 bound text.toList with
  | none => exact h
  | some k =>
    obtain ⟨text, -, htext⟩ := Option.bind_eq_some_iff.1 hread
    simpa using (Option.filter_eq_some_iff.1 htext).2

namespace Config

theorem fits_default : ({} : Config).Fits := ⟨⟨by decide, by decide, by decide⟩, by decide⟩

theorem fits_of_ofYaml {text : String} {c : Config} (h : ofYaml text = .ok c) : c.Fits := by
  unfold ofYaml at h
  split at h
  case h_1 => cases h
  case h_2 =>
    cases h
    exact fits_default
  case h_3 =>
    simp only [mapError_eq_ok, ofDocument, bind_eq_ok] at h
    obtain ⟨found, -, link, hlink, flow, -, session, hsession, heq⟩ := h
    cases heq
    exact ⟨of_field fits_default.link LinkConfig.fits_of_ofYaml hlink,
      of_field (p := fun s : SessionConfig => s.handshakeTimeoutMs < wordBound)
        fits_default.handshakeTimeout SessionConfig.timeout_lt_of_ofYaml hsession⟩

theorem Fits.override {c : Config} (h : c.Fits) (e : Environment) : (override e c).Fits :=
  ⟨⟨e.natural_lt _ h.link.maxPacketSize, e.natural_lt _ h.link.flushInterval,
    e.natural_lt _ h.link.receivePollInterval⟩, e.natural_lt _ h.handshakeTimeout⟩

theorem fits_of_fromFile {e : Environment} {path : String} {c : Config}
    (h : fromFile e path = .ok c) : c.Fits := by
  unfold fromFile at h
  split at h
  · cases h
  · split at h
    · cases h
    · exact fits_of_ofYaml (mapError_eq_ok.1 h)

theorem fits_of_load {e : Environment} {c : Config} (h : load e = .ok c) : c.Fits := by
  unfold load at h
  split at h
  · cases h
    exact fits_default.override e
  · obtain ⟨c', hfile, rfl⟩ := map_eq_ok.1 h
    exact (fits_of_fromFile hfile).override e

end Config

namespace Command

theorem fits_of_loadValid {e : Environment} {file : Option String} {c : Config}
    (h : loadValid e file = .ok c) : c.Fits := by
  simp only [loadValid, bind_eq_ok, mapError_eq_ok] at h
  obtain ⟨c', hload, -, -, heq⟩ := h
  cases heq
  cases file with
  | none => exact Config.fits_of_load hload
  | some path => exact Config.fits_of_fromFile hload

/-- What the configuration command prints is a text of the very configuration in use. -/
theorem printed_config_read {e : Environment} {file : Option String} {text : String}
    (h : execute e (.config file) = .ok text) :
    ∃ c, loadValid e file = .ok c ∧ Config.ofYaml text = .ok c := by
  obtain ⟨c, hload, rfl⟩ := map_eq_ok.1 h
  exact ⟨c, hload, Config.ofYaml_toYaml (fits_of_loadValid hload)⟩

end Command

/-! ## What is saved -/

namespace Config

theorem fromFile_of_toYaml {c : Config} (h : c.Fits) {e : Environment} {path : String}
    (hfile : e.fileBytes path = .ok c.toYaml.toUTF8.toList) : fromFile e path = .ok c := by
  rw [fromFile, hfile]
  simp only [fromUTF8?_toUTF8, ofYaml_toYaml h]
  rfl

/-- A configuration is loaded from the file it was saved to. -/
theorem fromFile_of_save {c : Config} (h : c.Fits) {t t' : FileTree} {path : String}
    (hsave : c.save t path = .ok t') (settings : List (String × Bytes)) :
    fromFile { settings := settings, fileBytes := t'.read } path = .ok c :=
  fromFile_of_toYaml h (FileTree.read_of_write (mapError_eq_ok.1 hsave))

end Config
end RailBus
