import PoolWatch.Proofs.Config.Guesses
import PoolWatch.Proofs.Settings.Layers
import PoolWatch.Settings.Toml

/-!
# Settings that are texts

A setting that is a text can be said in the local file and by a variable. The file's text is kept as
it stands. A variable's is kept unless it looks like a truth value or a number. Then it comes back
as that is written.
-/

namespace PoolWatch

open Config

inductive TextSetting
  | endpoint
  | method
  | relayUrl
  | userAgent
  | host
  | path

namespace TextSetting

def setting : TextSetting → Setting
  | endpoint => .endpoint
  | method => .method
  | relayUrl => .relayUrl
  | userAgent => .userAgent
  | host => .host
  | path => .path

/-- The setting, if it is set. -/
def get : TextSetting → Settings → Option String
  | endpoint, s => some s.monitor.endpoint
  | method, s => some s.monitor.method
  | relayUrl, s => s.gateway.relayUrl
  | userAgent, s => some s.gateway.userAgent
  | host, s => some s.relay.host
  | path, s => some s.relay.path

def variableName : TextSetting → String
  | endpoint => "MONITOR__MONITOR__ENDPOINT"
  | method => "MONITOR__MONITOR__METHOD"
  | relayUrl => "MONITOR__GATEWAY__RELAY_URL"
  | userAgent => "MONITOR__GATEWAY__USER_AGENT"
  | host => "MONITOR__RELAY__HOST"
  | path => "MONITOR__RELAY__PATH"

/-- A local file that says this of the setting, and nothing else. -/
def written (k : TextSetting) (v : String) : String :=
  String.ofList (Settings.header k.setting.shape.key ++ Settings.textLine k.setting.name v)

/-- Variables that say nothing of the setting, nor of its section as a whole. -/
def LeftAlone (k : TextSetting) (environment : List (String × String)) : Prop :=
  ∀ m ∈ environmentLayer environment,
    (Key.ofText m.1).Misses k.setting.shape.key k.setting.name

variable (k : TextSetting)

theorem variableKey?_name :
    variableKey? k.variableName = some (k.setting.shape.key ++ "." ++ k.setting.name) := by
  cases k <;> decide

theorem key_name : Key.ofText (k.setting.shape.key ++ "." ++ k.setting.name) =
    ⟨k.setting.shape.key, [.member k.setting.name]⟩ := by
  cases k <;> decide

theorem key_section : Key.ofText k.setting.shape.key = ⟨k.setting.shape.key, []⟩ := by
  cases k <;> decide

theorem get_of_reads {t : Tree} {s : Settings} {w : String}
    (h : k.setting.Takes (some t) (k.setting.get s)) (hw : t.asText = .ok w) :
    k.get s = some w := by
  cases k
  case relayUrl =>
    obtain ⟨hnull, -⟩ | ⟨-, w', hw', hget⟩ := (Tree.asOptionalText_eq_ok _ _).mp h
    · cases t with
      | scalar origin v =>
        obtain rfl := Option.some.inj hnull
        simp [Tree.asText] at hw
      | _ => simp [Tree.scalar?] at hnull
    · obtain rfl := Except.ok.inj (hw'.symm.trans hw)
      exact hget
  all_goals exact congrArg some (Except.ok.inj (h.symm.trans hw))

theorem get_of_holds {t v : Tree} {s : Settings} {w : String}
    (hholds : Tree.Holds k.setting.shape.key k.setting.name v t) (hw : v.asText = .ok w)
    (h : Settings.ofTree t = .ok s) : k.get s = some w := by
  have htable : (Settings.sectionOf t k.setting.shape).isTable = true := by
    obtain ⟨section', hsection, htable⟩ := hholds.table
    rw [Settings.sectionOf, hsection]
    exact htable
  have hown := Settings.says_of_ofTree h htable
  rw [Settings.Says, hholds.said] at hown
  exact k.get_of_reads hown hw

end TextSetting

/-! ## Loading -/

theorem holds_overDefaults {layers : List Layer} {root name : String} {origin : Option String}
    {v : Scalar} (h : Tree.Holds root name (.scalar origin v) (layered layers)) :
    Tree.Holds root name (.scalar origin v) (Settings.overDefaults layers) := by
  obtain ⟨hdistinct, htable⟩ := Tree.distinct_layered layers
  exact h.laidOver htable hdistinct _

namespace TextSetting

variable {k : TextSetting} {v : String}

theorem LeftAlone.perm {environment others : List (String × String)} (h : k.LeftAlone others)
    (hperm : environment.Perm others) : k.LeftAlone environment :=
  fun m hm => h m ((hperm.filterMap _).mem_iff.mp hm)

theorem LeftAlone.after {before after : List (String × String)}
    (h : k.LeftAlone (before ++ after)) : k.LeftAlone after := by
  intro m hm
  refine h m ?_
  rw [environmentLayer, List.filterMap_append]
  exact List.mem_append_right _ hm

theorem environmentLayer_name (before after : List (String × String)) :
    environmentLayer (before ++ (k.variableName, v) :: after) =
      environmentLayer before ++ (k.setting.shape.key ++ "." ++ k.setting.name,
        .scalar (some environmentName) (variableValue v)) :: environmentLayer after := by
  unfold environmentLayer
  rw [List.filterMap_append, List.filterMap_cons_some]
  simp only [k.variableKey?_name, Option.map_some]

/-- A variable's text is guessed at, whatever the files say, and wherever the variable is. -/
theorem get_of_variable {files : Files} {folder : String}
    {environment others : List (String × String)}
    {s : Settings} (hperm : environment.Perm ((k.variableName, v) :: others))
    (hothers : k.LeftAlone others) (h : Settings.load files environment folder = .ok s) {w : String}
    (hw : Guessed v w) : k.get s = some w := by
  obtain ⟨before, after, rfl⟩ := List.append_of_mem (hperm.mem_iff.mpr List.mem_cons_self)
  have hafter : k.LeftAlone after :=
    (hothers.perm (List.perm_middle.symm.trans hperm).cons_inv).after
  obtain ⟨low, mid, -, -, hlayers⟩ := (Settings.load_eq_ok _ _ _ _).mp h
  obtain ⟨htree, -⟩ := (Settings.ofLayers_eq_ok _ _).mp hlayers
  rw [environmentLayer_name] at htree
  refine k.get_of_holds (holds_overDefaults ?_) (hw.asText (some environmentName)) htree
  exact Tree.holds_putAll (Tree.holds_put_pair k.key_name _ _) hafter _

/-- The local file's text is kept, whatever the default file and other variables say. -/
theorem get_of_local {c : Sources} {s : Settings} (hsections : OfSections c.middle)
    (hsaid : k.setting.inFile? c.middle = some (.text v)) (hvariables : k.LeftAlone c.environment)
    (h : c.load = .ok s) : k.get s = some v := by
  obtain ⟨origin, origin', hload⟩ := c.load_layers
  obtain ⟨low, mid, -, hmid, hlayers⟩ := (hload s).mp h
  obtain ⟨htree, -⟩ := (Settings.ofLayers_eq_ok _ _).mp hlayers
  have hnames := (document_names hmid).1
  rw [← Tree.saidMembers_names origin'] at hnames
  have hsetting : mid.setting? k.setting.shape.key k.setting.name = some (.text v) := by
    rwa [Setting.inFile?, hmid] at hsaid
  have hsaid' : Layer.setting? (Tree.saidMembers origin' mid) k.setting.shape.key k.setting.name =
      some (.scalar (some origin') (.text v)) := by
    rw [Tree.setting?_said, hsetting]
    rfl
  have hholds := Tree.holds_putAll_sections hnames
    (Tree.isSection_said origin' (hsections.isSection hmid)) hsaid'
  exact k.get_of_holds (holds_overDefaults ((hholds _).putAll_missed hvariables)) rfl htree

def writtenSection (k : TextSetting) (v : String) : Toml.Section where
  key := k.setting.shape.key
  entries := [.text k.setting.name v k.setting.bare_name]
  bare := k.setting.bare_key
  names := by simp

theorem document_written (k : TextSetting) (v : String) : document? (some (k.written v)) =
    some [(k.setting.shape.key, .table none [(k.setting.name, .text v)])] := by
  refine @document_sections _ [k.writtenSection v] ?_ (by simp)
  simp [written, Settings.header, Settings.textLine, Toml.documentChars, Toml.Section.chars,
    Toml.Entry.line, writtenSection, Toml.Entry.text]

theorem ofSections_written (k : TextSetting) (v : String) : OfSections (some (k.written v)) := by
  intro layer hlayer
  obtain rfl := Option.some.inj ((k.document_written v).symm.trans hlayer)
  rw [List.forall_mem_singleton]
  exact ⟨rfl, k.key_section⟩

theorem inFile?_written (k : TextSetting) (v : String) :
    k.setting.inFile? (some (k.written v)) = some (.text v) := by
  rw [Setting.inFile?, document_written]
  simp [Layer.setting?, Tree.members]

end TextSetting

/-- A variable's text comes back as it stands exactly if it is its own guess. The same text in the
local file always does. Variables have no order, and no other one may speak of the setting. -/
theorem text_of_sources (k : TextSetting) (v : String) :
    (∀ files folder environment others s, environment.Perm ((k.variableName, v) :: others) →
      k.LeftAlone others → Settings.load files environment folder = .ok s →
        (∃ w, Guessed v w ∧ k.get s = some w) ∧ (k.get s = some v ↔ Guessed v v)) ∧
      ∀ (c : Sources) s, c.middle = some (k.written v) → k.LeftAlone c.environment →
        c.load = .ok s → k.get s = some v := by
  constructor
  · intro files folder environment others s hperm hothers h
    obtain ⟨w, hw⟩ := exists_guessed v
    have hget := TextSetting.get_of_variable hperm hothers h hw
    refine ⟨⟨w, hw, hget⟩, ?_⟩
    constructor
    · intro hv
      obtain rfl := Option.some.inj (hv.symm.trans hget)
      exact hw
    · exact TextSetting.get_of_variable hperm hothers h
  · intro c s hmiddle hvariables h
    refine TextSetting.get_of_local ?_ ?_ hvariables h
    · rw [hmiddle]
      exact k.ofSections_written v
    · rw [hmiddle]
      exact k.inFile?_written v

/-- A version with a zero at its end, in a variable. -/
def versionVariable : List (String × String) := [(TextSetting.userAgent.variableName, "1.10")]

theorem versionVariable_load : ∃ s, Settings.load (.ofTexts []) versionVariable "config" = .ok s ∧
    TextSetting.userAgent.get s = some "1.1" := by
  have hget : (Settings.load (.ofTexts []) versionVariable "config").toOption.map
      TextSetting.userAgent.get = some (some "1.1") := by decide +kernel
  obtain ⟨s, hload, hs⟩ := Option.map_eq_some_iff.mp hget
  exact ⟨s, toOption_eq_some.mp hload, hs⟩

/-- The version is taken for a number, and the zero is lost. -/
theorem version_shortened : ∃ s,
    Settings.load (.ofTexts []) versionVariable "config" = .ok s ∧
      TextSetting.userAgent.get s ≠ some "1.10" := by
  obtain ⟨s, hload, hget⟩ := versionVariable_load
  refine ⟨s, hload, ?_⟩
  rw [hget]
  decide

/-- The version in the local file. -/
def versionFile : Sources where
  folder := "config"
  lowest := none
  middle := some (TextSetting.userAgent.written "1.10")
  environment := []

theorem version_of_sources :
    (∃ s, Settings.load (.ofTexts []) versionVariable "config" = .ok s ∧
      ∃ w, Guessed "1.10" w ∧ TextSetting.userAgent.get s = some w) ∧
      ∃ s, versionFile.load = .ok s ∧ TextSetting.userAgent.get s = some "1.10" := by
  obtain ⟨hvariable, hfile⟩ := text_of_sources .userAgent "1.10"
  have halone : TextSetting.userAgent.LeftAlone [] := by
    simp [TextSetting.LeftAlone, environmentLayer]
  constructor
  · obtain ⟨s, hload, -⟩ := versionVariable_load
    exact ⟨s, hload, (hvariable _ _ _ [] s (List.Perm.refl _) halone hload).1⟩
  · have hsome : versionFile.load.toOption.isSome = true := by decide +kernel
    obtain ⟨s, hs⟩ := Option.isSome_iff_exists.mp hsome
    have hload := toOption_eq_some.mp hs
    exact ⟨s, hload, hfile versionFile s rfl halone hload⟩

end PoolWatch
