import PoolWatch.Json.Failure
import PoolWatch.Settings.Basic

/-!
# Settings as JSON

A section is an object with its settings by name, or a list of them in order. What else an object
has is passed over.
-/

namespace PoolWatch

/-- What a setting is read as. -/
inductive SettingKind
  | text
  | word64
  | size
  | port
  | record (name : String) (fields : Nat)

def SettingKind.name : SettingKind → String
  | text => "a string"
  | word64 => "u64"
  | size => "usize"
  | port => "u16"
  | record name _ => "struct " ++ name

/-- Why a value is not the one of a setting. -/
inductive SettingMisfit
  | wrongType (found : Json.Found) (expected : SettingKind)
  | wrongValue (found : Json.Found) (expected : SettingKind)
  | missing (field : String)
  | tooFew (length : Nat) (name : String) (fields : Nat)
  | tooMany (length : Nat)

def SettingMisfit.message : SettingMisfit → String
  | wrongType found expected =>
    "invalid type: " ++ found.message ++ ", expected " ++ expected.name
  | wrongValue found expected =>
    "invalid value: " ++ found.message ++ ", expected " ++ expected.name
  | missing field => "missing field `" ++ field ++ "`"
  | tooFew length name fields =>
    "invalid length " ++ String.ofList (Nat.toDigits 10 length) ++ ", expected struct " ++ name ++
      " with " ++ String.ofList (Nat.toDigits 10 fields) ++
      (if fields = 1 then " element" else " elements")
  | tooMany length =>
    "invalid length " ++ String.ofList (Nat.toDigits 10 length) ++
      ", expected fewer elements in array"

namespace Settings

abbrev Reading (α : Type) := Except SettingMisfit α

def foundIn : Json → Json.Found
  | .null => .null
  | .bool b => .bool b
  | .number n => .number n
  | .text s => .text s
  | .list _ => .list
  | .object _ => .object

/-! ## Values -/

def readText : Json → Reading String
  | .text s => .ok s
  | v => .error (.wrongType (foundIn v) .text)

/-- Null is no text, and no misfit either. -/
def readOptionalText : Json → Reading (Option String)
  | .null => .ok none
  | v => match readText v with
    | .ok s => .ok (some s)
    | .error e => .error e

def readWhole (kind : SettingKind) (limit : Nat) : Json → Reading Nat
  | .number (.whole n fits) =>
    if 0 ≤ n ∧ n.toNat ≤ limit then .ok n.toNat
    else .error (.wrongValue (.number (.whole n fits)) kind)
  | v => .error (.wrongType (foundIn v) kind)

def read64 (kind : SettingKind) (v : Json) : Reading UInt64 :=
  match readWhole kind (1 <<< 64 - 1) v with
  | .ok n => .ok (.ofNat n)
  | .error e => .error e

def readPort (v : Json) : Reading UInt16 :=
  match readWhole .port 65535 v with
  | .ok n => .ok (.ofNat n)
  | .error e => .error e

/-! ## Sections -/

/-- A field of a section: its name, how its value is taken, and whether it may be left out. -/
structure SectionField (σ : Type) where
  name : String
  optional : Bool
  take : σ → Json → Reading σ

/-- Takes the members in turn. Unknown names are passed over. -/
def readMembers {σ : Type} (fields : List (SectionField σ)) (state : σ) :
    List (String × Json) → Reading σ
  | [] => .ok state
  | (name, v) :: rest =>
    match fields.find? (·.name == name) with
    | none => readMembers fields state rest
    | some f =>
      match f.take state v with
      | .error e => .error e
      | .ok state => readMembers fields state rest

/-- Takes the items of a list for the fields in order. `taken` counts those before. -/
def readItems {σ : Type} (name : String) (count taken : Nat) (state : σ) :
    List (SectionField σ) → List Json → Reading σ
  | [], [] => .ok state
  | [], rest => .error (.tooMany (taken + rest.length))
  | f :: fields, [] =>
    if f.optional then readItems name count (taken + 1) state fields []
    else .error (.tooFew taken name count)
  | f :: fields, v :: rest =>
    match f.take state v with
    | .error e => .error e
    | .ok state => readItems name count (taken + 1) state fields rest

/-- Reads an object or a list as a section. A misfit is told before a missing member. -/
def readSection {σ : Type} (name : String) (fields : List (SectionField σ)) (state : σ) :
    Json → Reading σ
  | .object members =>
    match fields.find? fun f => !f.optional && (members.lookup f.name).isNone with
    | some f =>
      match readMembers fields state members with
      | .error e => .error e
      | .ok _ => .error (.missing f.name)
    | none => readMembers fields state members
  | .list items => readItems name fields.length 0 state fields items
  | v => .error (.wrongType (foundIn v) (.record name fields.length))

def field {α σ : Type} (name : String) (read : Json → Reading α) (store : σ → α → σ) :
    SectionField σ where
  name := name
  optional := false
  take state v := match read v with
    | .ok a => .ok (store state a)
    | .error e => .error e

def monitorFields : List (SectionField MonitorSettings) :=
  [field "endpoint" readText fun m s => { m with endpoint := s },
   field "method" readText fun m s => { m with method := s },
   field "poll_interval_ms" (read64 .word64) fun m n => { m with pollIntervalMs := n },
   field "request_timeout_ms" (read64 .word64) fun m n => { m with requestTimeoutMs := n }]

/-- The address of a relay may be missing, since it may be unset. -/
def gatewayFields : List (SectionField GatewaySettings) :=
  [{ field "relay_url" readOptionalText fun g s => { g with relayUrl := s } with optional := true },
   field "user_agent" readText fun g s => { g with userAgent := s }]

def relayFields : List (SectionField RelaySettings) :=
  [field "host" readText fun r s => { r with host := s },
   field "port" readPort fun r n => { r with port := n },
   field "path" readText fun r s => { r with path := s },
   field "max_body_bytes" (read64 .size) fun r n => { r with maxBodyBytes := n },
   field "upstream_timeout_ms" (read64 .word64) fun r n => { r with targetTimeoutMs := n }]

def fields : List (SectionField Settings) :=
  [field "monitor" (readSection "MonitorSettings" monitorFields default.monitor)
     fun s m => { s with monitor := m },
   field "gateway" (readSection "GatewaySettings" gatewayFields default.gateway)
     fun s g => { s with gateway := g },
   field "relay" (readSection "RelaySettings" relayFields default.relay)
     fun s r => { s with relay := r }]

/-! ## Whole settings -/

/-- Settings with their members in order. An address that is unset is left out. -/
def toJson (s : Settings) : Json :=
  .object [
    ("gateway", .object ((s.gateway.relayUrl.toList.map fun url => ("relay_url", .text url)) ++
      [("user_agent", .text s.gateway.userAgent)])),
    ("monitor", .object [("endpoint", .text s.monitor.endpoint), ("method", .text s.monitor.method),
      ("poll_interval_ms", .number (.ofUInt64 s.monitor.pollIntervalMs)),
      ("request_timeout_ms", .number (.ofUInt64 s.monitor.requestTimeoutMs))]),
    ("relay", .object [("host", .text s.relay.host),
      ("max_body_bytes", .number (.ofUInt64 s.relay.maxBodyBytes)), ("path", .text s.relay.path),
      ("port", .number (.ofUInt64 s.relay.port.toUInt64)),
      ("upstream_timeout_ms", .number (.ofUInt64 s.relay.targetTimeoutMs))])]

mutual

/-- One value laid over another. Objects are laid over each other member by member, and null leaves
what is there. -/
def overlay (base : Json) : Json → Json
  | .null => base
  | .object members =>
    match base with
    | .object below => .object (overlayMembers below members)
    | _ => .object members
  | v => v

def overlayMembers (below : List (String × Json)) : List (String × Json) → List (String × Json)
  | [] => below
  | (name, v) :: rest =>
    overlayMembers (Json.insertMember name (overlay ((below.lookup name).getD .null) v) below) rest

end

/-- The defaults with a part of the settings laid over them. -/
def ofJson (part : Json) : Reading Settings :=
  readSection "Settings" fields default (overlay default.toJson part)

end Settings

end PoolWatch
