import PoolWatch.Board
import PoolWatch.Poll.Outcome

/-!
# The poller

A poller counts its cycles and publishes a frame on its board at the start and at the end of each. A
cycle may be given up before its call has ended. Then the poller goes on polling as far as its
readers can tell.
-/

namespace PoolWatch

/-- One remote call, and the frame that was published when it started. -/
structure Call where
  startedAt : Nat
  endpoint : String
  method : String
  seen : Frame
deriving DecidableEq

/-- What a poller knows between its steps. -/
structure Poller where
  settings : MonitorSettings
  state : PollState
  cycle : Nat
  board : Board

namespace Poller

def new (settings : MonitorSettings) : Poller := ⟨settings, .idle, 0, .new⟩

def frame (p : Poller) : Frame := p.board.frame

def update (s : Board.Step) (p : Poller) : Poller := { p with board := (p.board.step s).2 }

def call (p : Poller) (now : Nat) : Call := ⟨now, p.settings.endpoint, p.settings.method, p.frame⟩

/-- Starts the next cycle. The model shown before stays. -/
def begin (p : Poller) : Poller :=
  { p with state := .polling, cycle := p.cycle + 1 }.update (.beginCycle (p.cycle + 1))

/-- Ends a cycle with the model that came of it. -/
def finish (model : DisplayModel) (time : Timestamp) (p : Poller) : Poller :=
  { p with state := .idle }.update (.publish model time)

/-! ## Steps -/

/-- What a poller can be asked to do. -/
inductive Step
  /-- Asks for the pool and publishes nothing. -/
  | fetch (reply : Reply)
  /-- Runs one cycle. It is given up after the limit, if there is one. -/
  | cycle (reply : Reply) (limit : Option Nat)
  | look

inductive Result
  | fetched (r : Refresh)
  | shown (model : DisplayModel)
  | abandoned
  | nothing

/-- What a step did, and how long it took. -/
structure Report where
  result : Result
  elapsed : Nat
  calls : List Call

def finishes (took : Nat) : Option Nat → Bool
  | none => true
  | some limit => took ≤ limit

/-- One step that starts at `now`. `clock` gives the time of publication. -/
def step (clock : Nat → Timestamp) (now : Nat) (p : Poller) : Step → Report × Poller
  | .fetch reply =>
    (⟨.fetched (reply.refresh p.settings), reply.duration p.settings.requestTimeoutMs.toNat,
      [p.call now]⟩, p)
  | .cycle reply limit =>
    let p := p.begin
    let took := reply.duration p.settings.requestTimeoutMs.toNat
    if finishes took limit then
      let model := (reply.refresh p.settings).model
      (⟨.shown model, took, [p.call now]⟩, p.finish model (clock (now + took)))
    else (⟨.abandoned, limit.getD 0, [p.call now]⟩, p)
  | .look => (⟨.nothing, 0, []⟩, p)

/-- All steps, each starting when the one before has ended, with the poller after each. -/
def steps (clock : Nat → Timestamp) (now : Nat) (p : Poller) : List Step → List (Report × Poller)
  | [] => []
  | s :: rest =>
    let done := p.step clock now s
    done :: steps clock (now + done.1.elapsed) done.2 rest

end Poller

end PoolWatch
