import PoolWatch.Config.Convert
import PoolWatch.Settings.Basic

/-!
# Settings from a configuration tree

A section is a table with its settings by name, or a list of them in order. All settings must be
there but one.
-/

namespace PoolWatch

open Config

/-- A section of the settings: its key, the name of its record, and how many settings it has. -/
structure SectionShape where
  key : String
  record : String
  size : Nat

namespace SectionShape

def monitor : SectionShape := ⟨"monitor", "MonitorSettings", 4⟩

def gateway : SectionShape := ⟨"gateway", "GatewaySettings", 2⟩

def relay : SectionShape := ⟨"relay", "RelaySettings", 5⟩

def member (s : SectionShape) (name : String) : String := s.key ++ "." ++ name

def item (s : SectionShape) (place : Nat) : String := s.key ++ "[" ++ Integer.text place ++ "]"

end SectionShape

/-- Names the place of a misfit. -/
def placed {α : Type} (key : String) : Except Misfit α → Except Refusal α
  | .ok a => .ok a
  | .error e => .error ⟨e, key⟩

/-- What a section has for a setting: the member of a name, or the item in a place. -/
def SectionShape.setting {α : Type} (s : SectionShape) (t : Tree) (name : String) (place : Nat)
    (convert : Tree → Except Misfit α) : Except Refusal (Option α) :=
  match t with
  | .table _ members =>
    match members.lookup name with
    | some v => (placed (s.member name) (convert v)).map some
    | none => .ok none
  | .list _ items =>
    match items[place]? with
    | some v => (placed (s.item place) (convert v)).map some
    | none => .error ⟨.tooShort place s.record s.size, s.key⟩
  | .scalar _ v => .error ⟨.noSection v s.record, s.key⟩

/-- A setting that may be missing, also at the end of a list. -/
def SectionShape.optionalSetting {α : Type} (s : SectionShape) (t : Tree) (name : String)
    (place : Nat) (convert : Tree → Except Misfit (Option α)) : Except Refusal (Option α) :=
  match t with
  | .list _ items =>
    if items.length ≤ place then .ok none else (s.setting t name place convert).map Option.join
  | _ => (s.setting t name place convert).map Option.join

/-- A setting that must not be missing. -/
def SectionShape.required {α : Type} (s : SectionShape) (name : String) :
    Option α → Except Refusal α
  | some a => .ok a
  | none => .error ⟨.missing name, s.key⟩

namespace Settings

-- What a section has is converted before anything is found to be missing.

def monitorOf (t : Tree) : Except Refusal MonitorSettings := do
  let s := SectionShape.monitor
  let endpoint ← s.setting t "endpoint" 0 Tree.asText
  let method ← s.setting t "method" 1 Tree.asText
  let interval ← s.setting t "poll_interval_ms" 2 Tree.asWord64
  let timeout ← s.setting t "request_timeout_ms" 3 Tree.asWord64
  return ⟨← s.required "endpoint" endpoint, ← s.required "method" method,
    ← s.required "poll_interval_ms" interval, ← s.required "request_timeout_ms" timeout⟩

/-- Only the address of a relay may be missing. -/
def gatewayOf (t : Tree) : Except Refusal GatewaySettings := do
  let s := SectionShape.gateway
  let url ← s.optionalSetting t "relay_url" 0 Tree.asOptionalText
  let agent ← s.setting t "user_agent" 1 Tree.asText
  return ⟨url, ← s.required "user_agent" agent⟩

def relayOf (t : Tree) : Except Refusal RelaySettings := do
  let s := SectionShape.relay
  let host ← s.setting t "host" 0 Tree.asText
  let port ← s.setting t "port" 1 Tree.asPort
  let path ← s.setting t "path" 2 Tree.asText
  let body ← s.setting t "max_body_bytes" 3 Tree.asWord64
  let timeout ← s.setting t "upstream_timeout_ms" 4 Tree.asWord64
  return ⟨← s.required "host" host, ← s.required "port" port, ← s.required "path" path,
    ← s.required "max_body_bytes" body, ← s.required "upstream_timeout_ms" timeout⟩

/-- The section of a key. A section that nobody names is an empty table. -/
def sectionOf (t : Tree) (s : SectionShape) : Tree := (t.members.lookup s.key).getD .empty

/-- Reads the sections one by one. The first refusal is told. -/
def ofTree (t : Tree) : Except Refusal Settings := do
  return ⟨← monitorOf (sectionOf t .monitor), ← gatewayOf (sectionOf t .gateway),
    ← relayOf (sectionOf t .relay)⟩

end Settings

end PoolWatch
