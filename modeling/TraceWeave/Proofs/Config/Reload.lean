import TraceWeave.Config.Document
import TraceWeave.Proofs.Duration
import TraceWeave.Proofs.Yaml.Plain
import TraceWeave.Proofs.Yaml.Sections

/-!
# Settings that are loaded again

The document of the settings has a section for each group and a line for each setting. Texts are
written so that they read back as they are, numbers, truth values and levels so that they read as
what they stand for, and durations as sums of units. So settings that can be used are loaded from
their own document as they were, but for what is not part of it.

* `write_eq`: the document is one of sections;
* `readSettings?_sections`: what its sections are read as;
* `load_toYaml`: the settings are loaded again.
-/

namespace TraceWeave.Config

open Text Yaml

/-! ## Lines and sections -/

/-- A line with a text, in quotation marks if it needs them. -/
def textEntry (key : String) (text : List Char) : Yaml.Entry :=
  ⟨key, Written.value 4 text, styleOf text, text⟩

/-- A line with a text as it is. -/
def plainEntry (key : String) (text : List Char) : Yaml.Entry :=
  ⟨key, text ++ ['\n'], .plain, text⟩

def Server.toSection (server : Server) : Section :=
  ⟨"server", [
    textEntry "host" server.host.toList,
    plainEntry "port" (Numeral.ofNat server.port.toNat),
    plainEntry "worker_threads" (Numeral.ofNat server.workerThreads.toNat),
    textEntry "shutdown_grace" server.shutdownGrace.write,
    plainEntry "echo_spans" (if server.echoSpans then "true" else "false").toList]⟩

def Capacity.toSection (capacity : Capacity) : Section :=
  ⟨"store", [
    plainEntry "max_traces" (Numeral.ofNat capacity.maxTraces.toNat),
    plainEntry "max_spans_per_trace" (Numeral.ofNat capacity.maxSpansPerTrace.toNat)]⟩

def Client.toSection (client : Client) : Section :=
  ⟨"client", [
    textEntry "host" client.host.toList,
    textEntry "timeout" client.timeout.write]⟩

def LogLevel.toSection (level : LogLevel) : Section :=
  ⟨"logging", [textEntry "level" level.name.toList]⟩

def Settings.sections (s : Settings) : List Section :=
  [s.server.toSection, s.store.toSection, s.client.toSection, s.logLevel.toSection]

theorem numberEntry_eq (key : String) (n : Nat) :
    numberEntry key n = (plainEntry key (Numeral.ofNat n)).line :=
  List.append_assoc ..

theorem switchEntry_eq (key : String) (b : Bool) :
    switchEntry key b = (plainEntry key (if b then "true" else "false").toList).line :=
  List.append_assoc ..

theorem Settings.write_eq (s : Settings) : s.write = s.sections.flatMap Section.lines := by
  simp only [write, numberEntry_eq, switchEntry_eq, sections, List.flatMap_cons, List.flatMap_nil,
    List.append_nil, List.append_assoc]
  rfl

/-! ## What can be read -/

theorem readable_text {key : String} (hkey : Scanner.IsKey key.toList) (text : List Char) :
    (textEntry key text).Readable :=
  ⟨hkey, denotes_value 3 text⟩

theorem readable_number {key : String} (hkey : Scanner.IsKey key.toList) (n : Nat) :
    (plainEntry key (Numeral.ofNat n)).Readable :=
  ⟨hkey, .plain (Numeral.ofNat_ne_nil n) (canBePlain_ofNat n)⟩

theorem readable_switch {key : String} (hkey : Scanner.IsKey key.toList) (b : Bool) :
    (plainEntry key (if b then "true" else "false").toList).Readable := by
  refine ⟨hkey, ?_⟩
  cases b with
  | true => exact .plain (by decide) (by decide)
  | false => exact .plain (by decide) (by decide)

theorem Server.readable_section (server : Server) : server.toSection.Readable where
  name := show Scanner.IsKey "server".toList by decide
  some_entry := List.cons_ne_nil _ _
  entries := by
    simp only [toSection, List.forall_mem_cons]
    exact ⟨readable_text (by decide) _, readable_number (by decide) _,
      readable_number (by decide) _, readable_text (by decide) _, readable_switch (by decide) _,
      nofun⟩

theorem Capacity.readable_section (capacity : Capacity) : capacity.toSection.Readable where
  name := show Scanner.IsKey "store".toList by decide
  some_entry := List.cons_ne_nil _ _
  entries := by
    simp only [toSection, List.forall_mem_cons]
    exact ⟨readable_number (by decide) _, readable_number (by decide) _, nofun⟩

theorem Client.readable_section (client : Client) : client.toSection.Readable where
  name := show Scanner.IsKey "client".toList by decide
  some_entry := List.cons_ne_nil _ _
  entries := by
    simp only [toSection, List.forall_mem_cons]
    exact ⟨readable_text (by decide) _, readable_text (by decide) _, nofun⟩

theorem LogLevel.readable_section (level : LogLevel) : level.toSection.Readable where
  name := show Scanner.IsKey "logging".toList by decide
  some_entry := List.cons_ne_nil _ _
  entries := by
    simp only [toSection, List.forall_mem_cons]
    exact ⟨readable_text (by decide) _, nofun⟩

theorem Settings.readable_sections (s : Settings) : ∀ x ∈ s.sections, x.Readable := by
  simp only [sections, List.forall_mem_cons]
  exact ⟨s.server.readable_section, s.store.readable_section, s.client.readable_section,
    s.logLevel.readable_section, nofun⟩

/-! ## Values -/

section Values

variable (d : Document)

theorem readPort?_number (p : UInt16) :
    readPort? d (.scalar none .plain (Numeral.ofNat p.toNat)) = some p := by
  have hread : d.unsigned? 0xFFFF (.scalar none .plain (Numeral.ofNat p.toNat)) = some p.toNat :=
    Plain.unsigned?_ofNat (Nat.le_of_lt_succ p.toNat_lt)
  rw [readPort?, hread, Option.map_some, UInt16.ofNat_toNat]

theorem readCount?_number (n : UInt64) :
    readCount? d (.scalar none .plain (Numeral.ofNat n.toNat)) = some n := by
  have hread : d.unsigned? 0xFFFF_FFFF_FFFF_FFFF (.scalar none .plain (Numeral.ofNat n.toNat)) =
      some n.toNat := Plain.unsigned?_ofNat (Nat.le_of_lt_succ n.toNat_lt)
  rw [readCount?, hread, Option.map_some, UInt64.ofNat_toNat]

theorem readDuration?_text (style : Style) (duration : Duration) :
    readDuration? d (.scalar none style duration.write) = some duration := by
  have htext : d.text? (.scalar none style duration.write) =
      some (String.ofList duration.write) := rfl
  rw [readDuration?, htext, Option.bind_some, String.toList_ofList, Duration.read?_write]

theorem text?_toList (style : Style) (text : String) :
    d.text? (.scalar none style text.toList) = some text := by
  have htext : d.text? (.scalar none style text.toList) = some (String.ofList text.toList) := rfl
  rw [htext, String.ofList_toList]

theorem bool?_switch (b : Bool) :
    d.bool? (.scalar none .plain (if b then "true" else "false").toList) = some b := by
  cases b with
  | true => rfl
  | false => rfl

theorem readLogging?_section (level : LogLevel) :
    readLogging? d level.toSection.member.node = some level := by
  have hfields : d.fields? ["level"] level.toSection.member.node =
      some [some (.scalar none (styleOf level.name.toList) level.name.toList)] :=
    d.fields?_members Yaml.Entry.member (l := level.toSection.entries)
      (show ["level"].Nodup by decide)
  have hlevel : (d.word? (.scalar none (styleOf level.name.toList) level.name.toList)).bind
      LogLevel.ofName? = LogLevel.ofName? level.name.toList := rfl
  rw [readLogging?, hfields]
  exact hlevel.trans (LogLevel.ofName?_name level)

theorem readClient?_section (client : Client) :
    readClient? d client.toSection.member.node = some client := by
  have hfields : d.fields? ["host", "timeout"] client.toSection.member.node = some [
      some (.scalar none (styleOf client.host.toList) client.host.toList),
      some (.scalar none (styleOf client.timeout.write) client.timeout.write)] :=
    d.fields?_members Yaml.Entry.member (l := client.toSection.entries)
      (show ["host", "timeout"].Nodup by decide)
  rw [readClient?, hfields]
  simp only [Option.bind_eq_bind, Option.bind_some, Document.defaulted, text?_toList,
    readDuration?_text]
  rfl

theorem readCapacity?_section (capacity : Capacity) :
    readCapacity? d capacity.toSection.member.node = some capacity := by
  have hfields : d.fields? ["max_traces", "max_spans_per_trace"] capacity.toSection.member.node =
      some [some (.scalar none .plain (Numeral.ofNat capacity.maxTraces.toNat)),
        some (.scalar none .plain (Numeral.ofNat capacity.maxSpansPerTrace.toNat))] :=
    d.fields?_members Yaml.Entry.member (l := capacity.toSection.entries)
      (show ["max_traces", "max_spans_per_trace"].Nodup by decide)
  rw [readCapacity?, hfields]
  simp only [Option.bind_eq_bind, Option.bind_some, Document.defaulted, readCount?_number]
  rfl

theorem readServer?_section (server : Server) :
    readServer? d server.toSection.member.node = some server := by
  have hfields :
      d.fields? ["host", "port", "worker_threads", "shutdown_grace", "echo_spans"]
        server.toSection.member.node = some [
          some (.scalar none (styleOf server.host.toList) server.host.toList),
          some (.scalar none .plain (Numeral.ofNat server.port.toNat)),
          some (.scalar none .plain (Numeral.ofNat server.workerThreads.toNat)),
          some (.scalar none (styleOf server.shutdownGrace.write) server.shutdownGrace.write),
          some (.scalar none .plain (if server.echoSpans then "true" else "false").toList)] :=
    d.fields?_members Yaml.Entry.member (l := server.toSection.entries)
      (show ["host", "port", "worker_threads", "shutdown_grace", "echo_spans"].Nodup by decide)
  rw [readServer?, hfields]
  simp only [Option.bind_eq_bind, Option.bind_some, Document.defaulted, text?_toList,
    readPort?_number, readCount?_number, readDuration?_text, bool?_switch]
  rfl

end Values

/-! ## Settings -/

/-- Only the part that is not in the document is lost. -/
theorem readSettings?_sections (s : Settings) :
    readSettings? ⟨.mapping (s.sections.map (·.member.entry)), []⟩ =
      some { s with debug := false } := by
  let d : Document := ⟨.mapping (s.sections.map (·.member.entry)), []⟩
  have hfields : d.fields? ["server", "store", "client", "logging"] d.root = some [
      some s.server.toSection.member.node, some s.store.toSection.member.node,
      some s.client.toSection.member.node, some s.logLevel.toSection.member.node] :=
    d.fields?_members Section.member (l := s.sections)
      (show ["server", "store", "client", "logging"].Nodup by decide)
  show readSettings? d = _
  rw [readSettings?, hfields]
  simp only [Option.bind_eq_bind, Option.bind_some, Document.defaulted, readServer?_section,
    readCapacity?_section, readClient?_section, readLogging?_section]
  rfl

namespace Settings

theorem trimmed_toYaml_ne (s : Settings) : trimmed s.toYaml ≠ "" := by
  obtain ⟨cs, hcs⟩ : ∃ cs, s.write = 's' :: cs := ⟨_, rfl⟩
  intro hempty
  have hnil := congrArg String.toList hempty
  rw [toList_trimmed, toYaml, String.toList_ofList, hcs] at hnil
  exact trim_ne_nil (by decide) hnil

/-- The document of any settings is read, also of such as cannot be used. -/
theorem ofYaml_toYaml (s : Settings) : ofYaml s.toYaml = .ok { s with debug := false } := by
  have hread : Document.ofText? s.toYaml.toList =
      some ⟨.mapping (s.sections.map (·.member.entry)), []⟩ := by
    rw [toYaml, String.toList_ofList, write_eq]
    exact ofText?_sections (List.cons_ne_nil _ _) s.readable_sections
  rw [ofYaml, if_neg s.trimmed_toYaml_ne, hread, Option.bind_some, readSettings?_sections]

theorem load_toYaml (s : Settings) (h : s.validate = .ok ()) :
    load s.toYaml = .ok { s with debug := false } := by
  have hvalid : ({ s with debug := false } : Settings).validate = .ok () := h
  rw [load, ofYaml_toYaml]
  show Except.bind (validate _) _ = _
  rw [hvalid]
  rfl

/-- A host that could be a number, one of several lines, and the largest count. -/
def awkward : Settings where
  server := { host := "1e3", port := 0, shutdownGrace := .zero, echoSpans := false }
  store := { maxTraces := 18446744073709551615, maxSpansPerTrace := 1 }
  client := { host := "\n  first: #1\n\n", timeout := ⟨31557600, 1, by decide⟩ }
  logLevel := .warn
  debug := true

theorem load_awkward :
    awkward.validate = .ok () ∧ load awkward.toYaml = .ok { awkward with debug := false } :=
  ⟨by decide, load_toYaml awkward (by decide)⟩

end Settings

end TraceWeave.Config
