import PoolWatch.Duration
import PoolWatch.Text.Blank

/-!
# Settings

What to poll, how to reach it, and how the relay listens. The defaults are usable as they are.
-/

namespace PoolWatch

/-- Whom to poll, with which method, how often and how long. -/
structure MonitorSettings where
  endpoint : String
  method : String
  pollIntervalMs : UInt64
  requestTimeoutMs : UInt64
deriving DecidableEq

structure GatewaySettings where
  /-- Calls go through this relay when it is set. -/
  relayUrl : Option String
  userAgent : String
deriving DecidableEq

structure RelaySettings where
  host : String
  port : UInt16
  path : String
  maxBodyBytes : UInt64
  targetTimeoutMs : UInt64
deriving DecidableEq

structure Settings where
  monitor : MonitorSettings
  gateway : GatewaySettings
  relay : RelaySettings
deriving DecidableEq

def MonitorSettings.pollInterval (m : MonitorSettings) : Duration :=
  .ofMillis m.pollIntervalMs.toNat

def MonitorSettings.requestTimeout (m : MonitorSettings) : Duration :=
  .ofMillis m.requestTimeoutMs.toNat

def RelaySettings.targetTimeout (r : RelaySettings) : Duration :=
  .ofMillis r.targetTimeoutMs.toNat

/-- What is set where no source says anything. -/
def Settings.default : Settings where
  monitor := ⟨"http://localhost:8111/", "get_json_resource", 10000, 5000⟩
  gateway := ⟨none, "cloud-pool-monitor XML-RPC client"⟩
  relay := ⟨"127.0.0.1", 8112, "/xmlrpc-socket", 65536, 10000⟩

/-! ## Which settings are usable -/

/-- The first rule that settings break. -/
inductive SettingsDefect
  | blankEndpoint
  | blankMethod
  | noInterval
  | noTimeout
  | relativePath
deriving DecidableEq

def SettingsDefect.message : SettingsDefect → String
  | blankEndpoint => "monitor.endpoint must not be empty"
  | blankMethod => "monitor.method must not be empty"
  | noInterval => "monitor.poll_interval_ms must be positive"
  | noTimeout => "monitor.request_timeout_ms must be positive"
  | relativePath => "relay.path must start with '/'"

/-- The first defect, if there is one. -/
def Settings.defect? (s : Settings) : Option SettingsDefect :=
  if Text.isBlankText s.monitor.endpoint then some .blankEndpoint
  else if Text.isBlankText s.monitor.method then some .blankMethod
  else if s.monitor.pollIntervalMs = 0 then some .noInterval
  else if s.monitor.requestTimeoutMs = 0 then some .noTimeout
  else if s.relay.path.toList.head? ≠ some '/' then some .relativePath
  else none

end PoolWatch
