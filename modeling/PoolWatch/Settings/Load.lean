import PoolWatch.Config.Source
import PoolWatch.Settings.Tree

/-!
# Loading settings

The defaults come first, then the default file of a folder, then its local file, then the
environment. The result is usable, or it is refused.
-/

namespace PoolWatch

inductive SettingsError
  | unreadable (path : String)
  | refused (r : Config.Refusal)
  | invalid (d : SettingsDefect)

def SettingsError.message : SettingsError → String
  | unreadable path => "Failed to load configuration: " ++ path ++ " cannot be read"
  | refused r => "Failed to load configuration: " ++ r.message
  | invalid d => "Invalid configuration: " ++ d.message

namespace Settings

/-- What the file for a path says, or that it cannot be read. -/
def fileLayer (files : Files) (path : String) : Except SettingsError Config.Layer :=
  match Config.fileLayer? files path with
  | some layer => .ok layer
  | none => .error (.unreadable path)

/-- The defaults, each under its key. The address of a relay has none. -/
def defaultLayer : Config.Layer :=
  [("monitor.endpoint", .text default.monitor.endpoint),
    ("monitor.method", .text default.monitor.method),
    ("monitor.poll_interval_ms", .whole default.monitor.pollIntervalMs.toNat),
    ("monitor.request_timeout_ms", .whole default.monitor.requestTimeoutMs.toNat),
    ("gateway.user_agent", .text default.gateway.userAgent),
    ("relay.host", .text default.relay.host),
    ("relay.port", .whole default.relay.port.toNat),
    ("relay.path", .text default.relay.path),
    ("relay.max_body_bytes", .whole default.relay.maxBodyBytes.toNat),
    ("relay.upstream_timeout_ms", .whole default.relay.targetTimeoutMs.toNat)]

/-- Layers over the defaults, the lowest first. They are put together before they cover the
defaults, so what one of them says is lost for good where another covers it. -/
def overDefaults (layers : List Config.Layer) : Config.Tree :=
  (Config.layered [defaultLayer]).laidOver (Config.layered layers)

/-- The settings that layers say, the lowest first. -/
def ofLayers (layers : List Config.Layer) : Except SettingsError Settings :=
  match ofTree (overDefaults layers) with
  | .error r => .error (.refused r)
  | .ok s =>
    match s.defect? with
    | some d => .error (.invalid d)
    | none => .ok s

/-- The settings that the files of a folder and the environment say, if they are usable. -/
def load (files : Files) (environment : List (String × String)) (folder : String) :
    Except SettingsError Settings :=
  match fileLayer files (Path.join folder "default") with
  | .error e => .error e
  | .ok lowest =>
    match fileLayer files (Path.join folder "local") with
    | .error e => .error e
    | .ok middle => ofLayers [lowest, middle, Config.environmentLayer environment]

/-- The folder when the command line names none. -/
def defaultFolder (environment : List (String × String)) : String :=
  (environment.lookup "CONFIG_PATH").getD "config"

end Settings

end PoolWatch
