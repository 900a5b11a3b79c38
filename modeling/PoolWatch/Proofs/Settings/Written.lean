import PoolWatch.Proofs.Settings.Layers
import PoolWatch.Settings.Toml

/-!
# Written settings are loaded

Settings that are written as the default file of a folder are loaded from it as they were.
-/

namespace PoolWatch

open Config Toml

/-! ## What is written -/

namespace Settings

variable (s : Settings)

theorem writable_iff : s.isWritable = true ↔ s.monitor.pollIntervalMs.toNat < 1 <<< 63 ∧
    s.monitor.requestTimeoutMs.toNat < 1 <<< 63 ∧ s.relay.maxBodyBytes.toNat < 1 <<< 63 ∧
      s.relay.targetTimeoutMs.toNat < 1 <<< 63 := by
  simp [isWritable]

def monitorSection (m : MonitorSettings) (hinterval : m.pollIntervalMs.toNat < 1 <<< 63)
    (htimeout : m.requestTimeoutMs.toNat < 1 <<< 63) : Section where
  key := "monitor"
  entries := [.text "endpoint" m.endpoint (Setting.bare_name .endpoint),
    .text "method" m.method (Setting.bare_name .method),
    .whole "poll_interval_ms" m.pollIntervalMs.toNat hinterval (Setting.bare_name .pollIntervalMs),
    .whole "request_timeout_ms" m.requestTimeoutMs.toNat htimeout
      (Setting.bare_name .requestTimeoutMs)]
  bare := Setting.bare_key .endpoint
  names := by simp [Entry.text, Entry.whole]

def gatewayEntries (g : GatewaySettings) : List Entry :=
  (g.relayUrl.map fun url => Entry.text "relay_url" url (Setting.bare_name .relayUrl)).toList ++
    [Entry.text "user_agent" g.userAgent (Setting.bare_name .userAgent)]

def gatewaySection (g : GatewaySettings) : Section where
  key := "gateway"
  entries := gatewayEntries g
  bare := Setting.bare_key .relayUrl
  names := by
    unfold gatewayEntries
    cases g.relayUrl <;> simp [Entry.text]

def relaySection (r : RelaySettings) (hbody : r.maxBodyBytes.toNat < 1 <<< 63)
    (htimeout : r.targetTimeoutMs.toNat < 1 <<< 63) : Section where
  key := "relay"
  entries := [.text "host" r.host (Setting.bare_name .host),
    .whole "port" r.port.toNat (Nat.lt_trans r.port.toNat_lt (by decide)) (Setting.bare_name .port),
    .text "path" r.path (Setting.bare_name .path),
    .whole "max_body_bytes" r.maxBodyBytes.toNat hbody (Setting.bare_name .maxBodyBytes),
    .whole "upstream_timeout_ms" r.targetTimeoutMs.toNat htimeout
      (Setting.bare_name .targetTimeoutMs)]
  bare := Setting.bare_key .host
  names := by simp [Entry.text, Entry.whole]

def sections (h : s.isWritable = true) : List Section :=
  have hbounds := s.writable_iff.mp h
  [monitorSection s.monitor hbounds.1 hbounds.2.1, gatewaySection s.gateway,
    relaySection s.relay hbounds.2.2.1 hbounds.2.2.2]

theorem tomlChars_eq (h : s.isWritable = true) : s.tomlChars = documentChars (s.sections h) := by
  obtain ⟨monitor, ⟨url, agent⟩, relay⟩ := s
  cases url <;>
    simp [tomlChars, monitorLines, gatewayLines, relayLines, header, textLine, numberLine,
      documentChars, Section.chars, Entry.line, sections, monitorSection, gatewaySection,
      gatewayEntries, relaySection, Entry.text, Entry.whole]

theorem sections_keys (h : s.isWritable = true) :
    (s.sections h).map Section.key = ["monitor", "gateway", "relay"] := rfl

theorem reads_sections (h : s.isWritable = true) (k : Setting) :
    k.Reads (Layer.setting? ((s.sections h).map Section.value) k.shape.key k.name) (k.get s) := by
  cases k with
  | pollIntervalMs => exact Tree.asWord64_whole s.monitor.pollIntervalMs
  | requestTimeoutMs => exact Tree.asWord64_whole s.monitor.requestTimeoutMs
  | maxBodyBytes => exact Tree.asWord64_whole s.relay.maxBodyBytes
  | targetTimeoutMs => exact Tree.asWord64_whole s.relay.targetTimeoutMs
  | port => exact Tree.asPort_whole s.relay.port
  | relayUrl =>
    obtain ⟨monitor, ⟨url, agent⟩, relay⟩ := s
    cases url <;> rfl
  | userAgent =>
    obtain ⟨monitor, ⟨url, agent⟩, relay⟩ := s
    cases url <;> rfl
  | _ => rfl

end Settings

/-! ## What is loaded -/

theorem document_toml {s : Settings} (h : s.isWritable = true) :
    document? (some (String.ofList s.tomlChars)) = some ((s.sections h).map Section.value) := by
  refine document_sections ?_ (by rw [s.sections_keys h]; decide)
  rw [String.toList_ofList, s.tomlChars_eq h]

theorem environmentLayer_eq_nil {environment : List (String × String)}
    (h : ∀ v ∈ environment, variableKey? v.1 = none) : environmentLayer environment = [] := by
  unfold environmentLayer
  rw [List.filterMap_eq_nil_iff]
  intro v hv
  simp [h v hv]

namespace Settings

/-- Settings as the one file of a folder, with variables that name no setting. -/
def alone (s : Settings) (folder : String) (environment : List (String × String)) : Sources where
  folder := folder
  lowest := some (String.ofList s.tomlChars)
  middle := none
  environment := environment

variable {s : Settings} {environment : List (String × String)}

theorem alone_orderly (h : s.isWritable = true) (folder : String)
    (hvariables : environmentLayer environment = []) : (s.alone folder environment).Orderly where
  lowest := by
    intro layer hlayer
    obtain rfl := Option.some.inj ((document_toml h).symm.trans hlayer)
    have hplain : ∀ key ∈ (s.sections h).map Section.key, Key.ofText key = ⟨key, []⟩ := by
      rw [s.sections_keys h]
      decide
    rw [List.forall_mem_map] at hplain ⊢
    exact fun t ht => ⟨rfl, hplain t ht⟩
  middle := by
    intro layer hlayer
    obtain rfl := Option.some.inj hlayer
    simp
  named := by simp [alone, hvariables]
  once := by simp [alone, hvariables]

theorem heard?_alone (h : s.isWritable = true) (folder : String)
    (hvariables : environmentLayer environment = []) (k : Setting) :
    k.heard? (s.alone folder environment) =
      Layer.setting? ((s.sections h).map Section.value) k.shape.key k.name := by
  have hnothing : k.inEnvironment? environment = none := by
    unfold Setting.inEnvironment?
    rw [hvariables]
    rfl
  have hmiddle : k.inFile? none = none := rfl
  have hlowest : k.inFile? (some (String.ofList s.tomlChars)) =
      Layer.setting? ((s.sections h).map Section.value) k.shape.key k.name := by
    unfold Setting.inFile?
    rw [document_toml h]
    rfl
  simp [Setting.heard?, alone, hnothing, hmiddle, hlowest]

theorem ofLayers_written (husable : s.defect? = none) (h : s.isWritable = true) (origin : String) :
    ofLayers [Tree.saidMembers origin ((s.sections h).map Section.value), [], []] = .ok s := by
  have hnothing : environmentLayer [] = [] := rfl
  have horderly := alone_orderly h "" hnothing
  refine (Sources.ofLayers_eq_ok horderly (document_toml h) rfl origin "" s).mpr
    ⟨fun k => ?_, husable⟩
  rw [heard?_alone h "" hnothing]
  exact s.reads_sections h k

/-- Usable settings that can be written are loaded from what is written. -/
theorem toml_loaded (husable : s.defect? = none) (hwritable : s.isWritable = true) :
    ∃ text, s.toml? = some text ∧ ∀ folder environment,
      (∀ v ∈ environment, variableKey? v.1 = none) →
        load (.inFolder folder [("default.toml", text)]) environment folder = .ok s := by
  refine ⟨String.ofList s.tomlChars, if_pos hwritable, fun folder environment hvariables => ?_⟩
  have hlayer := environmentLayer_eq_nil hvariables
  have hdocument := document_toml hwritable
  refine (Sources.load_eq_ok (alone_orderly hwritable folder hlayer) s).mpr ⟨⟨?_, rfl⟩, ?_, husable⟩
  · simp [alone, hdocument]
  · intro k
    rw [heard?_alone hwritable folder hlayer]
    exact s.reads_sections hwritable k

/-- Settings whose texts take all forms of strings. -/
def awkward : Settings where
  monitor := ⟨"a \"b\"", "'''\"\"\"\\\x07", 9223372036854775807, 1⟩
  gateway := ⟨some "", "c\r\n\td \"\"\""⟩
  relay := ⟨"e\n''\\", 65535, "/\u2028\x00", 0, 9223372036854775807⟩

theorem awkward_loaded : awkward.defect? = none ∧ awkward.isWritable = true ∧
    ∃ text, awkward.toml? = some text ∧
      load (.inFolder "config" [("default.toml", text)]) [("HOME", "/root")] "config" =
        .ok awkward := by
  have husable : awkward.defect? = none := by decide
  have hwritable : awkward.isWritable = true := by decide
  obtain ⟨text, htext, hload⟩ := toml_loaded husable hwritable
  exact ⟨husable, hwritable, text, htext, hload _ _ (by decide)⟩

end Settings

/-! ## Among other files -/

/-- The folder has no local file, and no default file of another format. -/
structure Files.OnlyDefault (files : Files) (folder : String) : Prop where
  middle : ∀ e ∈ endings, files.isFile (Path.join folder ("local." ++ e.1)) = false
  lowest : ∀ e ∈ endings, e.1 ≠ "toml" →
    files.isFile (Path.join folder ("default." ++ e.1)) = false

namespace Settings

variable {files : Files} {folder : String} {environment : List (String × String)}

theorem join_ending (folder name ending : String) : Path.join folder name ++ "." ++ ending =
    Path.join folder (name ++ "." ++ ending) := by
  rw [Path.join_append, Path.join_append]

theorem local_nothing (honly : files.OnlyDefault folder) :
    fileLayer? files (Path.join folder "local") = some [] := by
  refine fileLayer?_none (findFile_absent fun e he => ?_)
  rw [join_ending]
  exact honly.middle e he

/-- Whatever other files there are, settings are loaded from where they are written. -/
theorem load_written {s : Settings} (husable : s.defect? = none) (hwritable : s.isWritable = true)
    (htext : files.text? (Path.join folder "default.toml") = some (String.ofList s.tomlChars))
    (hbare : files.isFile (Path.join folder "default") = false) (honly : files.OnlyDefault folder)
    (hvariables : ∀ v ∈ environment, variableKey? v.1 = none) :
    load files environment folder = .ok s := by
  have htoml : ("toml", Format.toml) ∈ endings := by decide
  have hpath := join_ending folder "default" "toml"
  have hfind : findFile files (Path.join folder "default") =
      some (Path.join folder "default.toml", .toml) := by
    refine (findFile_only hbare htoml ?_ fun e he hother => ?_).trans (by rw [hpath]; rfl)
    · rw [hpath]
      exact Option.isSome_of_eq_some htext
    · rw [join_ending]
      exact honly.lowest e he hother
  have hread : Format.toml.read (withoutMark (String.ofList s.tomlChars)) =
      some ((s.sections hwritable).map Section.value) := document_toml hwritable
  have hlowest := fileLayer?_found hfind htext
  rw [hread] at hlowest
  refine (load_eq_ok files environment folder s).mpr ⟨_, [], hlowest, local_nothing honly, ?_⟩
  rw [environmentLayer_eq_nil hvariables]
  exact ofLayers_written husable hwritable _

/-- A file without an ending hides the others and says nothing. -/
theorem load_hidden (hbare : files.isFile (Path.join folder "default") = true)
    (honly : files.OnlyDefault folder) (hvariables : ∀ v ∈ environment, variableKey? v.1 = none) :
    load files environment folder = .ok Settings.default := by
  refine (load_eq_ok files environment folder _).mpr
    ⟨[], [], fileLayer?_none (findFile_bare hbare), local_nothing honly, ?_⟩
  rw [environmentLayer_eq_nil hvariables]
  have horderly : (Sources.mk "" none none []).Orderly :=
    ⟨by rintro _ ⟨⟩; simp, by rintro _ ⟨⟩; simp, by simp [environmentLayer],
      by simp [environmentLayer]⟩
  refine (Sources.ofLayers_eq_ok horderly rfl rfl "" "" _).mpr ⟨fun k => ?_, by decide⟩
  cases k <;> rfl

end Settings

end PoolWatch
