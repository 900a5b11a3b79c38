import PoolWatch.Proofs.Files
import PoolWatch.Proofs.Settings.Fields
import PoolWatch.Proofs.Toml.Lines
import PoolWatch.Proofs.Toml.Names
import PoolWatch.Settings.Load

/-!
# Where a setting is from

A setting is what the highest source says that says anything of it: the environment, then the local
file, then the default file. What no source says has its default.
-/

namespace PoolWatch

open Config

/-- A folder with the texts of its default file and its local file, if they are there, and the
variables of the environment. -/
structure Sources where
  folder : String
  lowest : Option String
  middle : Option String
  environment : List (String × String)

def Sources.files (c : Sources) : List (String × String) :=
  (c.lowest.map ("default.toml", ·)).toList ++ (c.middle.map ("local.toml", ·)).toList

def Sources.load (c : Sources) : Except SettingsError Settings :=
  Settings.load (.inFolder c.folder c.files) c.environment c.folder

/-- What a document says, and nothing if there is none. -/
def document? : Option String → Option Layer
  | none => some []
  | some text => Toml.read (withoutMark text).toList

namespace Setting

def inFile? (k : Setting) (text : Option String) : Option Tree :=
  (document? text).bind fun layer => layer.setting? k.shape.key k.name

def inEnvironment? (k : Setting) (environment : List (String × String)) : Option Tree :=
  (environmentLayer environment).keyed? k.shape.key k.name

/-- What is heard of a setting. -/
def heard? (k : Setting) (c : Sources) : Option Tree :=
  (k.inEnvironment? c.environment).or ((k.inFile? c.middle).or (k.inFile? c.lowest))

end Setting

/-- A document of sections: its members are tables, under names that are no paths. -/
def OfSections (text : Option String) : Prop :=
  ∀ layer, document? text = some layer →
    ∀ m ∈ layer, m.2.isTable = true ∧ Key.ofText m.1 = ⟨m.1, []⟩

/-- The files hold sections, and each variable names one setting of a section, which no other one
names. -/
structure Sources.Orderly (c : Sources) : Prop where
  lowest : OfSections c.lowest
  middle : OfSections c.middle
  named : ∀ m ∈ environmentLayer c.environment,
    ∃ root name, Key.ofText m.1 = ⟨root, [.member name]⟩
  once : ((environmentLayer c.environment).map (Key.ofText ·.1)).Nodup

/-! ## Files -/

theorem document_names {text : Option String} {layer : Layer} (h : document? text = some layer) :
    (layer.map (·.1)).Nodup ∧ ∀ m ∈ layer, (m.2.members.map (·.1)).Nodup := by
  cases text with
  | none =>
    obtain rfl := Option.some.inj h
    exact ⟨List.nodup_nil, by simp⟩
  | some text => exact Toml.read_distinct h

theorem Setting.bare_name (k : Setting) : Toml.IsBare k.name := by
  cases k <;> decide

theorem Setting.bare_key (k : Setting) : Toml.IsBare k.shape.key := by
  cases k <;> decide

theorem document_sections {text : String} {sections : List Toml.Section}
    (htext : text.toList = Toml.documentChars sections)
    (hkeys : (sections.map Toml.Section.key).Nodup) :
    document? (some text) = some (sections.map Toml.Section.value) := by
  have hmark : withoutMark text = text := by
    unfold withoutMark
    rw [htext]
    match sections with
    | [] => rfl
    | [_] => rfl
    | _ :: _ :: _ => rfl
  rw [document?, hmark, htext, Toml.read_documentChars hkeys]

theorem OfSections.isSection {text : Option String} (htext : OfSections text) {layer : Layer}
    (h : document? text = some layer) : ∀ m ∈ layer, Tree.IsSection m := by
  intro m hm
  obtain ⟨htable, hplain⟩ := htext layer h m hm
  exact ⟨htable, (document_names h).2 m hm, hplain⟩

theorem Sources.names (c : Sources) : ∀ m ∈ c.files, Path.IsName m.1 := by
  unfold files
  cases c.lowest <;> cases c.middle <;> simp <;> decide

theorem Sources.fileLayer?_lowest (c : Sources) : ∃ origin,
    fileLayer? (.inFolder c.folder c.files) (Path.join c.folder "default") =
      (document? c.lowest).map (Tree.saidMembers origin) := by
  obtain ⟨folder, lowest, middle, environment⟩ := c
  cases lowest with
  | none =>
    refine ⟨"", fileLayer?_absent folder (Sources.names _) fun e he => ?_⟩
    simp only [endings, List.mem_cons, List.not_mem_nil, or_false] at he
    rcases he with rfl | rfl | rfl | rfl | rfl <;> refine ⟨by decide, ?_⟩ <;>
      cases middle <;> simp [files]
  | some text =>
    refine ⟨_, fileLayer?_toml folder (Sources.names _) (by decide) ?_ (by decide) ?_⟩
    · cases middle <;> simp [files]
    · simp [files]

theorem Sources.fileLayer?_middle (c : Sources) : ∃ origin,
    fileLayer? (.inFolder c.folder c.files) (Path.join c.folder "local") =
      (document? c.middle).map (Tree.saidMembers origin) := by
  obtain ⟨folder, lowest, middle, environment⟩ := c
  cases middle with
  | none =>
    refine ⟨"", fileLayer?_absent folder (Sources.names _) fun e he => ?_⟩
    simp only [endings, List.mem_cons, List.not_mem_nil, or_false] at he
    rcases he with rfl | rfl | rfl | rfl | rfl <;> refine ⟨by decide, ?_⟩ <;>
      cases lowest <;> simp [files]
  | some text =>
    refine ⟨_, fileLayer?_toml folder (Sources.names _) (by decide) ?_ (by decide) ?_⟩
    · cases lowest <;> simp [files, lookup_cons]
    · cases lowest <;> simp [files, lookup_cons]

/-! ## Loading -/

theorem Settings.ofLayers_eq_ok (layers : List Layer) (s : Settings) :
    ofLayers layers = .ok s ↔
      ofTree (overDefaults layers) = .ok s ∧ s.defect? = none := by
  unfold ofLayers
  cases ofTree (overDefaults layers) with
  | error r => simp
  | ok s' =>
    dsimp only
    cases hdefect : s'.defect? with
    | none =>
      simp only [Except.ok.injEq]
      constructor
      · rintro rfl
        exact ⟨rfl, hdefect⟩
      · exact And.left
    | some d =>
      simp only [reduceCtorEq, Except.ok.injEq, false_iff, not_and]
      rintro rfl
      simp [hdefect]

theorem Settings.load_eq_ok (files : Files) (environment : List (String × String)) (folder : String)
    (s : Settings) : load files environment folder = .ok s ↔
      ∃ low mid, fileLayer? files (Path.join folder "default") = some low ∧
        fileLayer? files (Path.join folder "local") = some mid ∧
          ofLayers [low, mid, environmentLayer environment] = .ok s := by
  unfold load fileLayer
  cases fileLayer? files (Path.join folder "default") <;>
    cases fileLayer? files (Path.join folder "local") <;> simp

theorem Sources.load_layers (c : Sources) : ∃ origin origin', ∀ s, c.load = .ok s ↔
    ∃ low mid, document? c.lowest = some low ∧ document? c.middle = some mid ∧
      Settings.ofLayers [Tree.saidMembers origin low, Tree.saidMembers origin' mid,
        environmentLayer c.environment] = .ok s := by
  obtain ⟨origin, hlow⟩ := c.fileLayer?_lowest
  obtain ⟨origin', hmid⟩ := c.fileLayer?_middle
  refine ⟨origin, origin', fun s => ?_⟩
  unfold load Settings.load Settings.fileLayer
  rw [hlow, hmid]
  cases document? c.lowest <;> cases document? c.middle <;> simp

/-! ## The defaults -/

theorem defaultLayer_keys : Settings.defaultLayer.map (Key.ofText ·.1) =
    [Setting.endpoint, .method, .pollIntervalMs, .requestTimeoutMs, .userAgent, .host, .port, .path,
      .maxBodyBytes, .targetTimeoutMs].map fun k => ⟨k.shape.key, [.member k.name]⟩ := by
  decide

theorem defaultLayer_named : ∀ m ∈ Settings.defaultLayer,
    ∃ root name, Key.ofText m.1 = ⟨root, [.member name]⟩ := by
  intro m hm
  have hkey := List.mem_map_of_mem (f := (Key.ofText ·.1)) hm
  rw [defaultLayer_keys] at hkey
  obtain ⟨k, -, hk⟩ := List.mem_map.mp hkey
  exact ⟨_, _, hk.symm⟩

theorem defaultLayer_once : (Settings.defaultLayer.map (Key.ofText ·.1)).Nodup := by
  rw [defaultLayer_keys]
  decide

theorem Setting.default_said {k : Setting} (hk : k ≠ .relayUrl) : ∃ t,
    Settings.defaultLayer.keyed? k.shape.key k.name = some t ∧
      k.convert t = .ok (k.get .default) := by
  cases k with
  | relayUrl => exact absurd rfl hk
  | _ => exact ⟨_, rfl, rfl⟩

theorem Setting.takes_default (k : Setting) (said : Option Tree) (a : k.Value) :
    k.Takes (said.or (Settings.defaultLayer.keyed? k.shape.key k.name)) a ↔ k.Reads said a := by
  cases said with
  | some t => rfl
  | none =>
    change k.Takes (Settings.defaultLayer.keyed? k.shape.key k.name) a ↔ a = k.get .default
    by_cases hk : k = .relayUrl
    · subst hk
      change some none = some a ↔ a = none
      rw [Option.some.injEq, eq_comm]
    · obtain ⟨t, ht, hconvert⟩ := Setting.default_said hk
      rw [ht, Setting.Takes, hconvert, Except.ok.injEq, eq_comm]

theorem setting?_default (r n : String) :
    Layer.setting? (layered [Settings.defaultLayer]).members r n =
      Tree.overlaid none (Settings.defaultLayer.keyed? r n) := by
  unfold layered
  rw [List.foldl_cons, List.foldl_nil,
    Tree.setting?_putAll_pairs defaultLayer_once defaultLayer_named]
  rfl

theorem sectioned_empty : Tree.Sectioned .empty := by
  simp [Tree.Sectioned, Tree.empty, Tree.members]

theorem sectioned_default : (layered [Settings.defaultLayer]).Sectioned := by
  unfold layered
  rw [List.foldl_cons, List.foldl_nil]
  exact Tree.sectioned_putAll sectioned_empty fun m hm => .inr (defaultLayer_named m hm)

theorem sectioned_overDefaults {layers : List Layer} (h : (layered layers).Sectioned) :
    (Settings.overDefaults layers).Sectioned :=
  Tree.sectioned_laidOver sectioned_default h (Tree.distinct_layered layers).2

variable {low mid high : Layer}

theorem setting?_layered (hlow : (low.map (·.1)).Nodup) (hmid : (mid.map (·.1)).Nodup)
    (hlows : ∀ m ∈ low, Tree.IsSection m) (hmids : ∀ m ∈ mid, Tree.IsSection m)
    (hkeys : (high.map (Key.ofText ·.1)).Nodup)
    (hnamed : ∀ m ∈ high, ∃ root name, Key.ofText m.1 = ⟨root, [.member name]⟩)
    (r n : String) : Layer.setting? (layered [low, mid, high]).members r n =
      Tree.overlaid (Tree.overlaid (Tree.overlaid none (low.setting? r n)) (mid.setting? r n))
        (high.keyed? r n) := by
  unfold layered
  simp only [List.foldl_cons, List.foldl_nil]
  rw [Tree.setting?_putAll_pairs hkeys hnamed, Tree.setting?_putAll_sections hmid hmids,
    Tree.setting?_putAll_sections hlow hlows]
  rfl

theorem sectioned_layered (hlows : ∀ m ∈ low, Tree.IsSection m)
    (hmids : ∀ m ∈ mid, Tree.IsSection m)
    (hnamed : ∀ m ∈ high, ∃ root name, Key.ofText m.1 = ⟨root, [.member name]⟩) :
    (layered [low, mid, high]).Sectioned := by
  unfold layered
  simp only [List.foldl_cons, List.foldl_nil]
  exact Tree.sectioned_putAll (Tree.sectioned_putAll (Tree.sectioned_putAll sectioned_empty
    fun m hm => .inl (hlows m hm)) fun m hm => .inl (hmids m hm)) fun m hm => .inr (hnamed m hm)

namespace Setting

variable (k : Setting)

theorem reads_over (below above : Option Tree) (a : k.Value) :
    k.Reads (Tree.overlaid below above) a ↔ k.Reads (above.or below) a := by
  cases above with
  | none => rfl
  | some t => exact k.convert_congr (Tree.scalar?_laidOver _ t) a

theorem reads_said (origin : String) (said : Option Tree) (a : k.Value) :
    k.Reads (said.map (Tree.said origin)) a ↔ k.Reads said a := by
  cases said with
  | none => rfl
  | some t => exact k.convert_congr (Tree.scalar?_said origin t) a

theorem reads_or {above above' below below' : Option Tree} {a : k.Value}
    (habove : above.isSome = above'.isSome) (h : k.Reads above a ↔ k.Reads above' a)
    (hbelow : k.Reads below a ↔ k.Reads below' a) :
    k.Reads (above.or below) a ↔ k.Reads (above'.or below') a := by
  cases above <;> cases above' <;> simp_all

theorem takes_over_default (said : Option Tree) (a : k.Value) :
    k.Takes (Tree.overlaid (Tree.overlaid none (Settings.defaultLayer.keyed? k.shape.key k.name))
      said) a ↔ k.Reads said a := by
  rw [← k.takes_default said a]
  cases said with
  | none =>
    cases Settings.defaultLayer.keyed? k.shape.key k.name with
    | none => rfl
    | some t => exact k.convert_congr (Tree.scalar?_laidOver _ t) a
  | some t => exact k.convert_congr (Tree.scalar?_laidOver _ t) a

end Setting

/-- What the layers together say of a setting is what is heard of it. -/
theorem Sources.says_iff {c : Sources} (hc : c.Orderly) (hlow : document? c.lowest = some low)
    (hmid : document? c.middle = some mid) (origin origin' : String) (s : Settings) (k : Setting) :
    Settings.Says (Settings.overDefaults [Tree.saidMembers origin low,
      Tree.saidMembers origin' mid, environmentLayer c.environment]) s k ↔
        k.Reads (k.heard? c) (k.get s) := by
  have hlows := Tree.isSection_said origin (hc.lowest.isSection hlow)
  have hmids := Tree.isSection_said origin' (hc.middle.isSection hmid)
  have hlownames := (document_names hlow).1
  have hmidnames := (document_names hmid).1
  rw [← Tree.saidMembers_names origin] at hlownames
  rw [← Tree.saidMembers_names origin'] at hmidnames
  have hinlow : k.inFile? c.lowest = low.setting? k.shape.key k.name := by
    simp [Setting.inFile?, hlow]
  have hinmid : k.inFile? c.middle = mid.setting? k.shape.key k.name := by
    simp [Setting.inFile?, hmid]
  obtain ⟨hdistinct, htable⟩ := Tree.distinct_layered [Tree.saidMembers origin low,
    Tree.saidMembers origin' mid, environmentLayer c.environment]
  unfold Settings.Says Settings.overDefaults Setting.heard? Setting.inEnvironment?
  rw [Tree.setting?_laidOver htable hdistinct (sectioned_layered hlows hmids hc.named),
    setting?_default, setting?_layered hlownames hmidnames hlows hmids hc.once hc.named,
    Tree.setting?_said, Tree.setting?_said, k.takes_over_default, Setting.reads_over, hinlow,
    hinmid]
  -- the environment first, then the local file, then the default file
  refine k.reads_or rfl Iff.rfl ?_
  rw [Setting.reads_over]
  refine k.reads_or Option.isSome_map (k.reads_said origin' _ _) ?_
  rw [Setting.reads_over, Option.or_none, Setting.reads_said]

theorem Sources.ofLayers_eq_ok {c : Sources} (hc : c.Orderly) (hlow : document? c.lowest = some low)
    (hmid : document? c.middle = some mid) (origin origin' : String) (s : Settings) :
    Settings.ofLayers [Tree.saidMembers origin low, Tree.saidMembers origin' mid,
      environmentLayer c.environment] = .ok s ↔
        (∀ k : Setting, k.Reads (k.heard? c) (k.get s)) ∧ s.defect? = none := by
  have hlayered := sectioned_layered (Tree.isSection_said origin (hc.lowest.isSection hlow))
    (Tree.isSection_said origin' (hc.middle.isSection hmid)) hc.named
  rw [Settings.ofLayers_eq_ok, Settings.ofTree_eq_ok (sectioned_overDefaults hlayered),
    forall_congr' (says_iff hc hlow hmid origin origin' s)]

/-- Sources are loaded as the settings that are heard one by one, if these are usable. -/
theorem Sources.load_eq_ok {c : Sources} (hc : c.Orderly) (s : Settings) : c.load = .ok s ↔
    ((document? c.lowest).isSome = true ∧ (document? c.middle).isSome = true) ∧
      (∀ k : Setting, k.Reads (k.heard? c) (k.get s)) ∧ s.defect? = none := by
  obtain ⟨origin, origin', hload⟩ := c.load_layers
  rw [hload]
  cases hlow : document? c.lowest with
  | none => simp
  | some low =>
    cases hmid : document? c.middle with
    | none => simp
    | some mid =>
      rw [← ofLayers_eq_ok hc hlow hmid origin origin' s]
      constructor
      · rintro ⟨_, _, hlow', hmid', h⟩
        obtain rfl := Option.some.inj hlow'
        obtain rfl := Option.some.inj hmid'
        exact ⟨⟨rfl, rfl⟩, h⟩
      · rintro ⟨-, h⟩
        exact ⟨low, mid, rfl, rfl, h⟩

/-- A number in the place of a section is gone where the next file has the section, and the defaults
are heard again. -/
example : ((Sources.load ⟨"config", some "relay = 3", some "[relay]\nport = 5", []⟩).map
    fun s => (s.relay.port, s.relay.host)).toOption = some (5, "127.0.0.1") := by
  decide +kernel

/-! ## What is loaded -/

theorem Setting.reads_unique {k : Setting} {said : Option Tree} {a b : k.Value}
    (ha : k.Reads said a) (hb : k.Reads said b) : a = b := by
  cases said with
  | none => exact ha.trans hb.symm
  | some t => exact Except.ok.inj (ha.symm.trans hb)

/-- Each source says of a setting what it says elsewhere. -/
structure Sources.SameOf (c c' : Sources) (k : Setting) : Prop where
  lowest : k.inFile? c.lowest = k.inFile? c'.lowest
  middle : k.inFile? c.middle = k.inFile? c'.middle
  environment : k.inEnvironment? c.environment = k.inEnvironment? c'.environment

/-- Settings are loaded exactly if each is what the highest source says of this very setting and all
of them are usable. So a setting stays what it is when sources say something else of another one. -/
theorem Sources.loaded_by_setting {c : Sources} (hc : c.Orderly) (s : Settings) :
    (c.load = .ok s ↔
      ((document? c.lowest).isSome = true ∧ (document? c.middle).isSome = true) ∧
        (∀ k : Setting, k.Reads (k.heard? c) (k.get s)) ∧ s.defect? = none) ∧
      (c.load = .ok s → Setting.relayUrl.heard? c = none → s.gateway.relayUrl = none) ∧
        ∀ (c' : Sources) (s' : Settings) (k : Setting), c'.Orderly →
          c.load = .ok s → c'.load = .ok s' → (∀ j ≠ k, c.SameOf c' j) →
            ∀ j ≠ k, j.get s = j.get s' := by
  refine ⟨load_eq_ok hc s, ?_, ?_⟩
  · intro h hunset
    obtain ⟨-, hreads, -⟩ := (load_eq_ok hc s).mp h
    have hurl := hreads .relayUrl
    rw [hunset] at hurl
    exact hurl
  · intro c' s' k hc' h h' hsame j hj
    obtain ⟨-, hreads, -⟩ := (load_eq_ok hc s).mp h
    obtain ⟨-, hreads', -⟩ := (load_eq_ok hc' s').mp h'
    have hheard : j.heard? c = j.heard? c' := by
      obtain ⟨hlow, hmid, henvironment⟩ := hsame j hj
      unfold Setting.heard?
      rw [hlow, hmid, henvironment]
    refine Setting.reads_unique (hreads j) ?_
    rw [hheard]
    exact hreads' j

/-- Two files, of which both say something of the endpoint and of the port. -/
def contested (environment : List (String × String)) : Sources where
  folder := "config"
  lowest := some "[monitor]\nendpoint = \"a\"\npoll_interval_ms = 7\n\n[relay]\nport = 1\n"
  middle := some "[monitor]\nendpoint = \"b\"\n\n[relay]\nport = 2\n"
  environment := environment

def contestedLowest : List Toml.Section :=
  [⟨"monitor", [.text "endpoint" "a" (Setting.bare_name .endpoint),
      .whole "poll_interval_ms" 7 (by decide) (Setting.bare_name .pollIntervalMs)],
      Setting.bare_key .endpoint, by decide⟩,
    ⟨"relay", [.whole "port" 1 (by decide) (Setting.bare_name .port)], Setting.bare_key .port,
      by decide⟩]

def contestedMiddle : List Toml.Section :=
  [⟨"monitor", [.text "endpoint" "b" (Setting.bare_name .endpoint)], Setting.bare_key .endpoint,
      by decide⟩,
    ⟨"relay", [.whole "port" 2 (by decide) (Setting.bare_name .port)], Setting.bare_key .port,
      by decide⟩]

theorem contested_lowest (environment : List (String × String)) :
    document? (contested environment).lowest =
      some [("monitor", .table none [("endpoint", .text "a"), ("poll_interval_ms", .whole 7)]),
        ("relay", .table none [("port", .whole 1)])] :=
  @document_sections _ contestedLowest (by decide) (by decide)

theorem contested_middle (environment : List (String × String)) :
    document? (contested environment).middle =
      some [("monitor", .table none [("endpoint", .text "b")]),
        ("relay", .table none [("port", .whole 2)])] :=
  @document_sections _ contestedMiddle (by decide) (by decide)

theorem contested_orderly {environment : List (String × String)}
    (hnamed : ∀ m ∈ environmentLayer environment,
      ∃ root name, Key.ofText m.1 = ⟨root, [.member name]⟩)
    (honce : ((environmentLayer environment).map (Key.ofText ·.1)).Nodup) :
    (contested environment).Orderly where
  lowest := by
    intro layer h
    obtain rfl := Option.some.inj ((contested_lowest environment).symm.trans h)
    simp only [List.forall_mem_cons]
    decide
  middle := by
    intro layer h
    obtain rfl := Option.some.inj ((contested_middle environment).symm.trans h)
    simp only [List.forall_mem_cons]
    decide
  named := hnamed
  once := honce

/-- The settings of the two files, with this port. -/
def contestedSettings (port : UInt16) : Settings :=
  ⟨⟨"b", "get_json_resource", 7, 5000⟩, Settings.default.gateway,
    { Settings.default.relay with port := port }⟩

theorem contested_load {environment : List (String × String)} (h : (contested environment).Orderly)
    {port : UInt16} (hport : Setting.port.Reads (Setting.port.heard? (contested environment)) port)
    (hothers : ∀ j ≠ Setting.port, j.inEnvironment? environment = none) :
    (contested environment).load = .ok (contestedSettings port) := by
  have hlow := contested_lowest environment
  have hmid := contested_middle environment
  have husable : (contestedSettings 0).defect? = none := by decide
  refine (Sources.load_eq_ok h _).mpr ⟨⟨by simp [hlow], by simp [hmid]⟩, ?_, husable⟩
  intro k
  by_cases hk : k = .port
  · subst hk
    exact hport
  · have hheard : k.heard? (contested environment) =
        (k.inFile? (contested environment).middle).or
          (k.inFile? (contested environment).lowest) := by
      have hunset : k.inEnvironment? (contested environment).environment = none := hothers k hk
      unfold Setting.heard?
      rw [hunset, Option.none_or]
    rw [hheard]
    unfold Setting.inFile?
    rw [hlow, hmid]
    cases k with
    | port => exact absurd rfl hk
    | _ => rfl

def portVariable : List (String × String) := [("MONITOR__RELAY__PORT", "3"), ("HOME", "/")]

theorem portVariable_layer : environmentLayer portVariable =
    [("relay.port", .scalar (some environmentName) (.whole 3))] := by
  have hkey : variableKey? "MONITOR__RELAY__PORT" = some "relay.port" := by decide
  have hother : variableKey? "HOME" = none := by decide
  have hvalue : variableValue "3" = .whole 3 := by decide
  simp [environmentLayer, portVariable, hkey, hother, hvalue]

/-- A variable that names the port moves the port and nothing else. -/
theorem contested_by_setting :
    (contested portVariable).Orderly ∧ (contested portVariable).load = .ok (contestedSettings 3) ∧
      (contested []).Orderly ∧ (contested []).load = .ok (contestedSettings 2) ∧
        (∀ j ≠ Setting.port, (contested portVariable).SameOf (contested []) j) ∧
          ∀ j ≠ Setting.port, j.get (contestedSettings 3) = j.get (contestedSettings 2) := by
  have hpath : Key.ofText "relay.port" = ⟨"relay", [.member "port"]⟩ := by decide
  have hempty : environmentLayer [] = [] := rfl
  have hothers : ∀ j ≠ Setting.port, j.inEnvironment? portVariable = none := by
    intro j hj
    unfold Setting.inEnvironment?
    rw [portVariable_layer]
    cases j with
    | port => exact absurd rfl hj
    | _ => simp [Layer.keyed?, hpath, Setting.shape, Setting.name, SectionShape.monitor,
        SectionShape.gateway, SectionShape.relay]
  have horderly : (contested portVariable).Orderly :=
    contested_orderly (by rw [portVariable_layer]; simpa using ⟨_, _, hpath⟩)
      (by rw [portVariable_layer]; exact List.nodup_singleton _)
  have horderly' : (contested []).Orderly :=
    contested_orderly (by simp [hempty]) (by simp [hempty])
  have hport : Setting.port.heard? (contested portVariable) =
      some (.scalar (some environmentName) (.whole 3)) := by
    have hvariable : Setting.port.inEnvironment? (contested portVariable).environment =
        some (.scalar (some environmentName) (.whole 3)) := by
      unfold Setting.inEnvironment?
      rw [show (contested portVariable).environment = portVariable from rfl, portVariable_layer]
      simp [Layer.keyed?, hpath, Setting.shape, Setting.name, SectionShape.relay]
    rw [Setting.heard?, hvariable, Option.some_or]
  have hport' : Setting.port.heard? (contested []) = some (.whole 2) := by
    have hfile : Setting.port.inFile? (contested []).middle = some (.whole 2) := by
      unfold Setting.inFile?
      rw [contested_middle]
      rfl
    have hunset : Setting.port.inEnvironment? (contested []).environment = none := rfl
    rw [Setting.heard?, hunset, hfile, Option.none_or, Option.some_or]
  have hload : (contested portVariable).load = .ok (contestedSettings 3) :=
    contested_load horderly (by rw [hport]; rfl) hothers
  have hload' : (contested []).load = .ok (contestedSettings 2) :=
    contested_load horderly' (by rw [hport']; rfl) fun _ _ => rfl
  have hsame : ∀ j ≠ Setting.port, (contested portVariable).SameOf (contested []) j :=
    fun j hj => ⟨rfl, rfl, hothers j hj⟩
  exact ⟨horderly, hload, horderly', hload', hsame,
    (Sources.loaded_by_setting horderly _).2.2 _ _ .port horderly' hload hload' hsame⟩

end PoolWatch
