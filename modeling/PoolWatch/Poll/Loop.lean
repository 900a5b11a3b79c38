import PoolWatch.Poll.Cadence
import PoolWatch.Poll.Poller

/-!
# The poll loop

The loop runs cycles on the cadence until it is cancelled. It starts at time 0 with a cycle that is
due at once, and the next cycle waits for the one before. No failure ends it. In the end it
publishes the stopped frame. Where something else is due just when the loop is cancelled, either may
come first.
-/

namespace PoolWatch

/-- The whole course of a loop: its calls, and what it does to the board, with the times. -/
structure Run where
  calls : List Call
  updates : List (Nat × Board.Step)
  stoppedAt : Nat

/-- The newest frame after each update of a board. -/
def Board.framesFrom (b : Board) : List (Nat × Board.Step) → List (Nat × Frame)
  | [] => []
  | (time, s) :: rest => (time, (b.step s).2.frame) :: (b.step s).2.framesFrom rest

namespace Run

/-- Each frame with the time from which it is the newest. -/
def frames (run : Run) : List (Nat × Frame) :=
  (0, Board.new.frame) :: Board.new.framesFrom run.updates

/-- The board as it is after all that has been done to it by a time. -/
def boardAt (run : Run) (time : Nat) : Board :=
  Board.new.after ((run.updates.takeWhile (·.1 ≤ time)).map (·.2))

/-- The frame that a reader finds at a time. -/
def frameAt (run : Run) (time : Nat) : Frame := (run.boardAt time).frame

def board (run : Run) : Board := Board.new.after (run.updates.map (·.2))

def last (run : Run) : Frame := run.board.frame

end Run

namespace Poller

/-- When a loop is cancelled, in milliseconds since its start. -/
structure Cancellation where
  time : Nat
  /-- So many events of the loop come before it, if they are due by then. A call is two events: its
  start, and its end with all that follows at once. -/
  after : Nat

/-- A cancellation comes first of all that is due at its time. -/
instance : Coe Nat Cancellation := ⟨fun time => ⟨time, 0⟩⟩

/-- What a loop is given. -/
structure Script where
  replies : Nat → Reply
  cancel : Cancellation
  clock : Nat → Timestamp

namespace Script

def cancelAt (s : Script) : Nat := s.cancel.time

/-- Whether an event of the loop comes before the cancellation. Events are numbered from 0. -/
def Reaches (s : Script) (event time : Nat) : Prop :=
  time < s.cancelAt ∨ time = s.cancelAt ∧ event < s.cancel.after

instance (s : Script) (event time : Nat) : Decidable (s.Reaches event time) :=
  inferInstanceAs (Decidable (_ ∨ _))

theorem Reaches.le {s : Script} {event time : Nat} (h : s.Reaches event time) :
    time ≤ s.cancelAt := h.elim Nat.le_of_lt fun hboth => Nat.le_of_eq hboth.1

end Script

/-- The end of a loop that makes no more calls. -/
def stop (s : Script) : Run :=
  ⟨[], [(s.cancelAt, .shutdown (s.clock s.cancelAt))], s.cancelAt⟩

/-- The loop from the moment it begins to wait for a cycle that is due. -/
def loop (s : Script) (p : Poller) (h : 0 < p.settings.pollIntervalMs.toNat) (now due : Nat) :
    Run :=
  let start := max now due
  if hstart : s.Reaches (2 * p.cycle) start then
    let q := p.begin
    let reply := s.replies p.cycle
    let finished := start + reply.duration p.settings.requestTimeoutMs.toNat
    if s.Reaches (2 * p.cycle + 1) finished then
      let model := (reply.refresh p.settings).model
      let r := q.finish model (s.clock finished)
      let rest := loop s r h finished (Cadence.next p.settings.pollIntervalMs.toNat due start)
      ⟨q.call start :: rest.calls,
        (start, .beginCycle q.cycle) :: (finished, .publish model (s.clock finished)) ::
          rest.updates, rest.stoppedAt⟩
    else ⟨[q.call start], (start, .beginCycle q.cycle) :: (stop s).updates, (stop s).stoppedAt⟩
  else stop s
termination_by s.cancelAt + 1 - due
decreasing_by
  have hnext := Cadence.due_lt_next h (Nat.le_max_right now due)
  have htime : max now due ≤ s.cancelAt := hstart.le
  omega

/-- The whole course. The interval must not be zero. -/
def run? (s : Script) (settings : MonitorSettings) : Option Run :=
  if h : 0 < settings.pollIntervalMs.toNat then some ((new settings).loop s h 0 0) else none

end Poller

end PoolWatch
