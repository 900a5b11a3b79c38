import PoolWatch.Number.Integer
import PoolWatch.Settings.Basic
import PoolWatch.Toml.Writer

/-!
# Settings as TOML

A section has a header and one line for each setting. A blank line is between two sections.
-/

namespace PoolWatch.Settings

def textLine (name : String) (s : String) : List Char :=
  name.toList ++ [' ', '=', ' '] ++ Toml.writeString s.toList ++ ['\n']

def numberLine (name : String) (n : Nat) : List Char :=
  name.toList ++ [' ', '=', ' '] ++ Nat.toDigits 10 n ++ ['\n']

def header (name : String) : List Char := '[' :: (name.toList ++ [']', '\n'])

def monitorLines (m : MonitorSettings) : List Char :=
  header "monitor" ++ textLine "endpoint" m.endpoint ++ textLine "method" m.method ++
    numberLine "poll_interval_ms" m.pollIntervalMs.toNat ++
    numberLine "request_timeout_ms" m.requestTimeoutMs.toNat

/-- A relay address that is not set has no line. -/
def gatewayLines (g : GatewaySettings) : List Char :=
  header "gateway" ++
    (match g.relayUrl with
      | some url => textLine "relay_url" url
      | none => []) ++
    textLine "user_agent" g.userAgent

def relayLines (r : RelaySettings) : List Char :=
  header "relay" ++ textLine "host" r.host ++ numberLine "port" r.port.toNat ++
    textLine "path" r.path ++ numberLine "max_body_bytes" r.maxBodyBytes.toNat ++
    numberLine "upstream_timeout_ms" r.targetTimeoutMs.toNat

/-- Whether all numbers are within what a document can hold. -/
def isWritable (s : Settings) : Bool :=
  [s.monitor.pollIntervalMs, s.monitor.requestTimeoutMs, s.relay.maxBodyBytes,
    s.relay.targetTimeoutMs].all fun n => n.toNat < 1 <<< 63

def tomlChars (s : Settings) : List Char :=
  monitorLines s.monitor ++ '\n' :: (gatewayLines s.gateway ++ '\n' :: relayLines s.relay)

/-- Settings as a file says them, if a file can say them. -/
def toml? (s : Settings) : Option String :=
  if s.isWritable then some (String.ofList s.tomlChars) else none

def unwritableMessage : String := "out-of-range value for u64 type"

end PoolWatch.Settings
