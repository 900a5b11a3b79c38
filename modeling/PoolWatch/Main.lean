import PoolWatch.Command.Arguments
import PoolWatch.Command.Run
import Std.Time.DateTime.Timestamp

/-!
# The program

Reads the arguments, the files and the variables that a command may need, runs the command, and
leaves behind what it did. There is no network here, so a call reaches nobody.
-/

namespace PoolWatch.Program

/-- The variables that the program looks at. -/
def variableNames : List String :=
  "CONFIG_PATH" :: [("MONITOR", ["ENDPOINT", "METHOD", "POLL_INTERVAL_MS", "REQUEST_TIMEOUT_MS"]),
    ("GATEWAY", ["RELAY_URL", "USER_AGENT"]),
    ("RELAY", ["HOST", "PORT", "PATH", "MAX_BODY_BYTES", "UPSTREAM_TIMEOUT_MS"])].flatMap
    fun (part, keys) => keys.map fun key => "MONITOR__" ++ part ++ "__" ++ key

def readEnvironment : IO (List (String × String)) := do
  variableNames.filterMapM fun name => do
    return (← IO.getEnv name).map fun value => (name, value)

def readFile (path : String) : IO (Option (String × String)) := do
  try
    return some (path, ← IO.FS.readFile path)
  catch _ =>
    return none

/-- The files of a folder that may hold configuration. -/
def readFiles (folder : String) : IO Files := do
  let names := ["default", "local"].flatMap fun name =>
    name :: Config.endings.map fun (ending, _) => name ++ "." ++ ending
  return .ofTexts (← names.filterMapM fun name => readFile (Path.join folder name))

def readClock : IO Timestamp := do
  let now := (← Std.Time.Timestamp.now).val
  return ⟨now.second.val, now.nano.val.toNat⟩

/-- Writes the files that have changed. -/
def writeFiles (folder : String) (before after : Files) : IO Unit := do
  for (path, text) in after.texts do
    if before.text? path ≠ some text then
      IO.FS.createDirAll folder
      IO.FS.writeFile path text

def run (i : Invocation) : IO UInt32 := do
  let environment ← readEnvironment
  let folder := i.folder environment
  let now ← readClock
  let w : Surroundings :=
    ⟨← readFiles folder, environment, Http.Peer.unreachable, true, fun _ => now⟩
  let (outcome, _) := w.run i []
  writeFiles folder w.files outcome.files
  IO.print outcome.printed
  match outcome.failure with
  | none => return 0
  | some e =>
    IO.eprintln ("Error: " ++ e.message)
    return 1

end PoolWatch.Program

def main (args : List String) : IO UInt32 := do
  match PoolWatch.Invocation.ofArguments args with
  | .ok i => PoolWatch.Program.run i
  | .error e =>
    IO.eprintln e.kind
    return .ofNat e.exitCode
