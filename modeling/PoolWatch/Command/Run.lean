import PoolWatch.Command.Basic
import PoolWatch.Plain.View
import PoolWatch.Poll.Loop
import PoolWatch.Relay.Handle
import PoolWatch.Settings.Toml

/-!
# Running commands

A command sees files, an environment and a network. It leaves files behind, and prints. All commands
but one need settings, and the one that writes the defaults needs none.
-/

namespace PoolWatch

/-- All that a command depends on, besides its command line. -/
structure Surroundings where
  files : Files
  environment : List (String × String)
  network : Http.Network
  color : Bool
  clock : Nat → Timestamp

inductive CommandError
  | settings (e : SettingsError)
  | call (e : CallError)
  | refresh
  | alreadyThere (path : String)
  | noFolder (path : String) (e : FileError)
  | notWritten (e : FileError)
  /-- The path of the relay is no route. -/
  | noRoute (path : String)

def CommandError.message : CommandError → String
  | settings e => e.message
  | call e => e.message
  | refresh => "refresh failed"
  | alreadyThere path => path ++ " already exists. Use --force to overwrite."
  | noFolder path e => "creating " ++ path ++ ": " ++ e.message
  | notWritten e => e.message
  | noRoute path => path ++ " is no route"

/-- What a command leaves behind. -/
structure Outcome where
  files : Files
  printed : String
  sent : List Http.Request
  failure : Option CommandError

namespace Surroundings

def fails (w : Surroundings) (e : CommandError) : Outcome := ⟨w.files, "", [], some e⟩

/-! ## Writing the defaults -/

def defaultFile : String := String.ofList Settings.default.tomlChars

def generatedLine (color : Bool) (path : String) : String :=
  String.ofList (Plain.successStyle.paint color ['✓']) ++ " Default configuration generated at " ++
    path ++ "\n"

/-- Writes the defaults into a folder. Only by force does it overwrite what is there. -/
def writeDefaults (w : Surroundings) (folder : String) (force : Bool) : Outcome :=
  let target := Path.join folder "default.toml"
  if w.files.isThere target && !force then w.fails (.alreadyThere target)
  else match w.files.makeFolder folder with
    | .error e => w.fails (.noFolder folder e)
    | .ok files =>
      match files.write target defaultFile with
      | .error e => w.fails (.notWritten e)
      | .ok files => ⟨files, generatedLine w.color target, [], none⟩

/-! ## Polling -/

/-- One call, and the table or the error that came of it. -/
def pollOnce (w : Surroundings) (s : Settings) : Outcome :=
  match Gateway.ofSettings s with
  | .error e => w.fails (.call e)
  | .ok g =>
    let (sent, result) := g.call w.network s.monitor.endpoint s.monitor.method
    let refresh := Refresh.ofResult result
    let failure := match refresh with
      | .ok _ => none
      | .error _ => some .refresh
    ⟨w.files, Plain.model w.color refresh.model, sent, failure⟩

/-- What a plain watcher prints of the frames that it sees: those without an outstanding call. -/
def watched (color : Bool) (frames : List Frame) : String :=
  String.join ((frames.filter (·.state = .idle)).map (Plain.frame color))

/-- Watches until the first refresh has been printed. The frame before the first cycle is not new to
the watcher. -/
def watchOnce (w : Surroundings) (s : Settings) : Outcome :=
  match Gateway.ofSettings s with
  | .error e => w.fails (.call e)
  | .ok g =>
    let (sent, result) := g.call w.network s.monitor.endpoint s.monitor.method
    let script : Poller.Script := ⟨fun _ => .after 0 result, ⟨1, 0⟩, w.clock⟩
    let frames : List Frame := match Poller.run? script s.monitor with
      | some run => run.frames.map Prod.snd
      | none => []
    ⟨w.files, watched w.color (frames.drop 1), sent, none⟩

/-! ## The relay -/

/-- Serves the relay, if its path is a route, for the requests that come until it is stopped. -/
def serve (w : Surroundings) (s : Settings) (asked : List Relay.Incoming) :
    Outcome × List Relay.Outgoing :=
  match Route.ofPath? s.relay.path with
  | none => (w.fails (.noRoute s.relay.path), [])
  | some route =>
    let served := asked.map (Relay.handle s.relay route w.network)
    (⟨w.files, "", served.flatMap (·.1), none⟩, served.map (·.2))

/-! ## Any command -/

/-- Runs a command. `asked` is what a relay is asked before it is stopped. -/
def run (w : Surroundings) (i : Invocation) (asked : List Relay.Incoming) :
    Outcome × List Relay.Outgoing :=
  let folder := i.folder w.environment
  match i.effective with
  | .init force => (w.writeDefaults folder force, [])
  | command =>
    match Settings.load w.files w.environment folder with
    | .error e => (w.fails (.settings e), [])
    | .ok s =>
      match command with
      | .watch _ => (w.watchOnce s, [])
      | .relay _ => w.serve s asked
      | _ => (w.pollOnce s, [])

end Surroundings

end PoolWatch
