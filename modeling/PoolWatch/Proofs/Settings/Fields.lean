import PoolWatch.Proofs.Config.Layers
import PoolWatch.Settings.Tree

/-!
# Settings one by one

A tree of sections is read setting by setting. Who said a value and what it was laid over does not
matter to its conversion.
-/

namespace PoolWatch

open Config

/-- A value is what was said, converted, or the default if nothing was said. -/
def Config.Reads {α : Type} (convert : Tree → Except Misfit α) (default : α) :
    Option Tree → α → Prop
  | none, a => a = default
  | some t, a => convert t = .ok a

inductive Setting
  | endpoint
  | method
  | pollIntervalMs
  | requestTimeoutMs
  | relayUrl
  | userAgent
  | host
  | port
  | path
  | maxBodyBytes
  | targetTimeoutMs
deriving DecidableEq

namespace Setting

abbrev Value : Setting → Type
  | endpoint | method | userAgent | host | path => String
  | pollIntervalMs | requestTimeoutMs | maxBodyBytes | targetTimeoutMs => UInt64
  | relayUrl => Option String
  | port => UInt16

def shape : Setting → SectionShape
  | endpoint | method | pollIntervalMs | requestTimeoutMs => .monitor
  | relayUrl | userAgent => .gateway
  | host | port | path | maxBodyBytes | targetTimeoutMs => .relay

def name : Setting → String
  | endpoint => "endpoint"
  | method => "method"
  | pollIntervalMs => "poll_interval_ms"
  | requestTimeoutMs => "request_timeout_ms"
  | relayUrl => "relay_url"
  | userAgent => "user_agent"
  | host => "host"
  | port => "port"
  | path => "path"
  | maxBodyBytes => "max_body_bytes"
  | targetTimeoutMs => "upstream_timeout_ms"

def get : (k : Setting) → Settings → k.Value
  | endpoint, s => s.monitor.endpoint
  | method, s => s.monitor.method
  | pollIntervalMs, s => s.monitor.pollIntervalMs
  | requestTimeoutMs, s => s.monitor.requestTimeoutMs
  | relayUrl, s => s.gateway.relayUrl
  | userAgent, s => s.gateway.userAgent
  | host, s => s.relay.host
  | port, s => s.relay.port
  | path, s => s.relay.path
  | maxBodyBytes, s => s.relay.maxBodyBytes
  | targetTimeoutMs, s => s.relay.targetTimeoutMs

def convert : (k : Setting) → Tree → Except Misfit k.Value
  | endpoint | method | userAgent | host | path => Tree.asText
  | pollIntervalMs | requestTimeoutMs | maxBodyBytes | targetTimeoutMs => Tree.asWord64
  | relayUrl => Tree.asOptionalText
  | port => Tree.asPort

/-- What a setting is, by what is said of it. -/
def Reads (k : Setting) (said : Option Tree) (a : k.Value) : Prop :=
  Config.Reads k.convert (k.get .default) said a

/-- What a setting is that is missing, if it may be. -/
def unset? : (k : Setting) → Option k.Value
  | relayUrl => some none
  | _ => none

/-- What a setting is, by what a tree has for it. -/
def Takes (k : Setting) (found : Option Tree) (a : k.Value) : Prop :=
  match found with
  | none => k.unset? = some a
  | some t => k.convert t = .ok a

theorem forall_iff {P : Setting → Prop} : (∀ k, P k) ↔
    (P endpoint ∧ P method ∧ P pollIntervalMs ∧ P requestTimeoutMs) ∧
      (P relayUrl ∧ P userAgent) ∧
        P host ∧ P port ∧ P path ∧ P maxBodyBytes ∧ P targetTimeoutMs := by
  constructor
  · intro h
    exact ⟨⟨h _, h _, h _, h _⟩, ⟨h _, h _⟩, h _, h _, h _, h _, h _⟩
  · rintro ⟨⟨h₁, h₂, h₃, h₄⟩, ⟨h₅, h₆⟩, h₇, h₈, h₉, h₁₀, h₁₁⟩ k
    cases k <;> assumption

end Setting

/-! ## Conversions -/

namespace Config.Tree

def scalar? : Tree → Option Scalar
  | scalar _ s => some s
  | _ => none

@[simp]
theorem scalar?_said (origin : String) (t : Tree) : (said origin t).scalar? = t.scalar? := by
  cases t <;> rfl

@[simp]
theorem scalar?_laidOver (below t : Tree) : (laidOver below t).scalar? = t.scalar? := by
  cases t with
  | table => cases below <;> simp [laidOver, scalar?]
  | _ => simp [laidOver]

variable {t u : Tree}

theorem asText_congr (h : t.scalar? = u.scalar?) (a : String) :
    t.asText = .ok a ↔ u.asText = .ok a := by
  cases t <;> cases u <;> simp only [scalar?, Option.some.injEq, reduceCtorEq] at h
  · subst h
    rename_i s _
    cases s <;> simp [asText]
  all_goals simp [asText]

theorem asOptionalText_eq_ok (t : Tree) (a : Option String) : t.asOptionalText = .ok a ↔
    (t.scalar? = some .null ∧ a = none) ∨
      (t.scalar? ≠ some .null ∧ ∃ s, t.asText = .ok s ∧ a = some s) := by
  cases t with
  | scalar _ s => cases s <;> simp [asOptionalText, scalar?, asText, eq_comm]
  | _ => simp [asOptionalText, scalar?, asText]

theorem asOptionalText_congr (h : t.scalar? = u.scalar?) (a : Option String) :
    t.asOptionalText = .ok a ↔ u.asOptionalText = .ok a := by
  simp only [asOptionalText_eq_ok, h, asText_congr h]

theorem asWord64_congr (h : t.scalar? = u.scalar?) (a : UInt64) :
    t.asWord64 = .ok a ↔ u.asWord64 = .ok a := by
  cases t <;> cases u <;> simp only [scalar?, Option.some.injEq, reduceCtorEq] at h
  · subst h
    rename_i s _
    cases s with
    | text s =>
      simp only [asWord64]
      cases wordOfText? s <;> simp
    | whole n =>
      simp only [asWord64]
      split <;> simp
    | _ => simp [asWord64]
  all_goals simp [asWord64]

theorem asPort_eq_ok (t : Tree) (a : UInt16) :
    t.asPort = .ok a ↔ ∃ n, t.asWord64 = .ok n ∧ n < 65536 ∧ n.toUInt16 = a := by
  unfold asPort
  cases t.asWord64 with
  | error e => simp
  | ok n =>
    dsimp only
    split
    · simp_all
    · rename_i hn
      simp [hn]

theorem asPort_congr (h : t.scalar? = u.scalar?) (a : UInt16) :
    t.asPort = .ok a ↔ u.asPort = .ok a := by
  simp only [asPort_eq_ok, asWord64_congr h]

theorem asWord64_whole (n : UInt64) : (whole n.toNat).asWord64 = .ok n := by
  simp [whole, asWord64]

theorem asPort_whole (n : UInt16) : (whole n.toNat).asPort = .ok n := by
  have hword : (whole n.toNat).asWord64 = .ok n.toUInt64 := by
    rw [← UInt16.toNat_toUInt64]
    exact asWord64_whole _
  have hlt : n.toUInt64 < 65536 := by
    rw [UInt64.lt_iff_toNat_lt, UInt16.toNat_toUInt64]
    exact n.toNat_lt
  simp [asPort, hword, hlt]

end Config.Tree

theorem Setting.convert_congr (k : Setting) {t u : Tree} (h : t.scalar? = u.scalar?) (a : k.Value) :
    k.convert t = .ok a ↔ k.convert u = .ok a := by
  cases k
  case relayUrl => exact Tree.asOptionalText_congr h a
  case port => exact Tree.asPort_congr h a
  case pollIntervalMs | requestTimeoutMs | maxBodyBytes | targetTimeoutMs =>
    exact Tree.asWord64_congr h a
  all_goals exact Tree.asText_congr h a

/-! ## Sections -/

theorem bind_eq_ok {ε α β : Type} {x : Except ε α} {f : α → Except ε β} {b : β} :
    (x >>= f) = .ok b ↔ ∃ a, x = .ok a ∧ f a = .ok b := by
  cases x with
  | error e => simp [bind, Except.bind]
  | ok a => simp [bind, Except.bind]

theorem toOption_eq_some {ε α : Type} {x : Except ε α} {a : α} :
    x.toOption = some a ↔ x = .ok a := by
  cases x <;> simp [Except.toOption]

namespace Settings

theorem isTable_sectionOf {t : Tree} (ht : t.Sectioned) (s : SectionShape) :
    (sectionOf t s).isTable = true := by
  unfold sectionOf
  cases hlookup : t.members.lookup s.key with
  | none => rfl
  | some v =>
    obtain ⟨front, back, hsplit, -⟩ := List.lookup_eq_some_iff.mp hlookup
    exact ht (s.key, v) (by simp [hsplit])

theorem lookup_sectionOf (t : Tree) (s : SectionShape) (name : String) :
    (sectionOf t s).members.lookup name = Layer.setting? t.members s.key name := by
  unfold sectionOf Layer.setting?
  cases t.members.lookup s.key <;> rfl

theorem setting_eq {α : Type} {t : Tree} {s : SectionShape}
    (htable : (sectionOf t s).isTable = true) (name : String) (place : Nat)
    (convert : Tree → Except Misfit α) :
    s.setting (sectionOf t s) name place convert =
      match Layer.setting? t.members s.key name with
      | some v => (placed (s.member name) (convert v)).map some
      | none => .ok none := by
  rw [← lookup_sectionOf]
  cases hsection : sectionOf t s with
  | table origin members => rfl
  | _ => simp [hsection, Tree.isTable] at htable

theorem setting_eq_ok {α : Type} {t : Tree} {s : SectionShape}
    (htable : (sectionOf t s).isTable = true) (name : String) (place : Nat)
    (convert : Tree → Except Misfit α) (a : α) :
    s.setting (sectionOf t s) name place convert = .ok (some a) ↔
      ∃ v, Layer.setting? t.members s.key name = some v ∧ convert v = .ok a := by
  rw [setting_eq htable]
  cases Layer.setting? t.members s.key name with
  | none => simp
  | some v => cases hv : convert v <;> simp [placed, Except.map, hv]

theorem optionalSetting_eq_ok {α : Type} {t : Tree} {s : SectionShape}
    (htable : (sectionOf t s).isTable = true) (name : String) (place : Nat)
    (convert : Tree → Except Misfit (Option α)) (a : Option α) :
    s.optionalSetting (sectionOf t s) name place convert = .ok a ↔
      match Layer.setting? t.members s.key name with
      | some v => convert v = .ok a
      | none => a = none := by
  have hplain : s.optionalSetting (sectionOf t s) name place convert =
      (s.setting (sectionOf t s) name place convert).map Option.join := by
    cases hsection : sectionOf t s with
    | table => rfl
    | _ => simp [hsection, Tree.isTable] at htable
  rw [hplain, setting_eq htable]
  cases Layer.setting? t.members s.key name with
  | none => simp [Except.map, eq_comm]
  | some v => cases hv : convert v <;> simp [placed, Except.map, hv]

theorem required_eq_ok {α : Type} (s : SectionShape) (name : String) (found : Option α) (a : α) :
    s.required name found = .ok a ↔ found = some a := by
  cases found <;> simp [SectionShape.required]

/-- What a tree says of a setting, as the setting that settings have. -/
def Says (t : Tree) (s : Settings) (k : Setting) : Prop :=
  k.Takes (Layer.setting? t.members k.shape.key k.name) (k.get s)

theorem says_iff_setting {t : Tree} {s : Settings} {k : Setting}
    (htable : (sectionOf t k.shape).isTable = true) (hk : k ≠ .relayUrl) (place : Nat) :
    Says t s k ↔ k.shape.setting (sectionOf t k.shape) k.name place k.convert =
      .ok (some (k.get s)) := by
  rw [setting_eq_ok htable, Says]
  cases Layer.setting? t.members k.shape.key k.name with
  | none =>
    have hunset : k.unset? = none := by
      cases k with
      | relayUrl => exact absurd rfl hk
      | _ => rfl
    simp [Setting.Takes, hunset]
  | some v => simp [Setting.Takes]

theorem monitorOf_eq_ok {t : Tree} (ht : (sectionOf t .monitor).isTable = true) (s : Settings) :
    monitorOf (sectionOf t .monitor) = .ok s.monitor ↔
      Says t s .endpoint ∧ Says t s .method ∧ Says t s .pollIntervalMs ∧
        Says t s .requestTimeoutMs := by
  rw [says_iff_setting (k := .endpoint) ht (by decide) 0,
    says_iff_setting (k := .method) ht (by decide) 1,
    says_iff_setting (k := .pollIntervalMs) ht (by decide) 2,
    says_iff_setting (k := .requestTimeoutMs) ht (by decide) 3]
  obtain ⟨monitor, gateway, relay⟩ := s
  simp only [monitorOf, bind_eq_ok, pure, Except.pure, required_eq_ok, Except.ok.injEq]
  constructor
  · rintro ⟨_, h₁, _, h₂, _, h₃, _, h₄, endpoint, rfl, method, rfl, interval, rfl, timeout, rfl,
      rfl⟩
    exact ⟨h₁, h₂, h₃, h₄⟩
  · rintro ⟨h₁, h₂, h₃, h₄⟩
    exact ⟨_, h₁, _, h₂, _, h₃, _, h₄, _, rfl, _, rfl, _, rfl, _, rfl, rfl⟩

theorem gatewayOf_eq_ok {t : Tree} (ht : (sectionOf t .gateway).isTable = true) (s : Settings) :
    gatewayOf (sectionOf t .gateway) = .ok s.gateway ↔
      Says t s .relayUrl ∧ Says t s .userAgent := by
  have hurl : Says t s .relayUrl ↔ SectionShape.gateway.optionalSetting (sectionOf t .gateway)
      "relay_url" 0 Tree.asOptionalText = .ok s.gateway.relayUrl := by
    have hkey : SectionShape.gateway.key = Setting.relayUrl.shape.key := rfl
    have hname : "relay_url" = Setting.relayUrl.name := rfl
    rw [optionalSetting_eq_ok ht, Says, hkey, hname]
    cases Layer.setting? t.members Setting.relayUrl.shape.key Setting.relayUrl.name with
    | none => simp [Setting.Takes, Setting.unset?, Setting.get, eq_comm]
    | some v => rfl
  rw [hurl, says_iff_setting (k := .userAgent) ht (by decide) 1]
  obtain ⟨monitor, gateway, relay⟩ := s
  simp only [gatewayOf, bind_eq_ok, pure, Except.pure, required_eq_ok, Except.ok.injEq]
  constructor
  · rintro ⟨url, h₁, _, h₂, agent, rfl, rfl⟩
    exact ⟨h₁, h₂⟩
  · rintro ⟨h₁, h₂⟩
    exact ⟨_, h₁, _, h₂, _, rfl, rfl⟩

theorem relayOf_eq_ok {t : Tree} (ht : (sectionOf t .relay).isTable = true) (s : Settings) :
    relayOf (sectionOf t .relay) = .ok s.relay ↔
      Says t s .host ∧ Says t s .port ∧ Says t s .path ∧ Says t s .maxBodyBytes ∧
        Says t s .targetTimeoutMs := by
  rw [says_iff_setting (k := .host) ht (by decide) 0,
    says_iff_setting (k := .port) ht (by decide) 1,
    says_iff_setting (k := .path) ht (by decide) 2,
    says_iff_setting (k := .maxBodyBytes) ht (by decide) 3,
    says_iff_setting (k := .targetTimeoutMs) ht (by decide) 4]
  obtain ⟨monitor, gateway, relay⟩ := s
  simp only [relayOf, bind_eq_ok, pure, Except.pure, required_eq_ok, Except.ok.injEq]
  constructor
  · rintro ⟨_, h₁, _, h₂, _, h₃, _, h₄, _, h₅, host, rfl, port, rfl, path, rfl, body, rfl,
      timeout, rfl, rfl⟩
    exact ⟨h₁, h₂, h₃, h₄, h₅⟩
  · rintro ⟨h₁, h₂, h₃, h₄, h₅⟩
    exact ⟨_, h₁, _, h₂, _, h₃, _, h₄, _, h₅, _, rfl, _, rfl, _, rfl, _, rfl, _, rfl, rfl⟩

theorem ofTree_eq_ok_iff (t : Tree) (s : Settings) :
    ofTree t = .ok s ↔ monitorOf (sectionOf t .monitor) = .ok s.monitor ∧
      gatewayOf (sectionOf t .gateway) = .ok s.gateway ∧
        relayOf (sectionOf t .relay) = .ok s.relay := by
  simp only [ofTree, bind_eq_ok, pure, Except.pure, Except.ok.injEq]
  constructor
  · rintro ⟨monitor, hmonitor, gateway, hgateway, relay, hrelay, rfl⟩
    exact ⟨hmonitor, hgateway, hrelay⟩
  · rintro ⟨hmonitor, hgateway, hrelay⟩
    exact ⟨_, hmonitor, _, hgateway, _, hrelay, rfl⟩

/-- A tree of sections says what settings say that are read from it one by one. -/
theorem ofTree_eq_ok {t : Tree} (ht : t.Sectioned) (s : Settings) :
    ofTree t = .ok s ↔ ∀ k, Says t s k := by
  rw [Setting.forall_iff, ← monitorOf_eq_ok (isTable_sectionOf ht _),
    ← gatewayOf_eq_ok (isTable_sectionOf ht _), ← relayOf_eq_ok (isTable_sectionOf ht _)]
  exact ofTree_eq_ok_iff t s

theorem says_of_ofTree {t : Tree} {s : Settings} (h : ofTree t = .ok s) {k : Setting}
    (htable : (sectionOf t k.shape).isTable = true) : Says t s k := by
  obtain ⟨hmonitor, hgateway, hrelay⟩ := (ofTree_eq_ok_iff t s).mp h
  cases k
  case endpoint | method | pollIntervalMs | requestTimeoutMs =>
    have hown := (monitorOf_eq_ok htable s).mp hmonitor
    simp only [hown]
  case relayUrl | userAgent =>
    have hown := (gatewayOf_eq_ok htable s).mp hgateway
    simp only [hown]
  case host | port | path | maxBodyBytes | targetTimeoutMs =>
    have hown := (relayOf_eq_ok htable s).mp hrelay
    simp only [hown]

end Settings

end PoolWatch
