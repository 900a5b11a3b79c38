import PoolWatch.Display.Encode
import PoolWatch.Timestamp

/-!
# Frames

What a reader sees at one moment: the number of the cycle, whether a call is outstanding, the model,
and when the model was published.
-/

namespace PoolWatch

/-- Whether the poller waits for a call. -/
inductive PollState
  | idle
  /-- A remote call is outstanding. -/
  | polling
deriving DecidableEq

def PollState.name : PollState → String
  | idle => "Idle"
  | polling => "Polling"

/-- What a reader gets to see: a model, and where the poller stands. -/
structure Frame where
  cycle : Nat
  state : PollState
  model : DisplayModel
  publishedAt : Option Timestamp
deriving DecidableEq

namespace Frame

def initial : Frame := ⟨0, .idle, .pending, none⟩

/-- A cycle starts. The model shown before stays. -/
def beginCycle (cycle : Nat) (f : Frame) : Frame := { f with cycle, state := .polling }

def publish (model : DisplayModel) (time : Timestamp) (f : Frame) : Frame :=
  { f with state := .idle, model, publishedAt := some time }

/-- A frame without a publication has no time, which is null. -/
def toJson (f : Frame) : Json :=
  .object [("cycle", .number (.ofUInt64 (.ofNat f.cycle))), ("state", .text f.state.name),
    ("model", f.model.toJson),
    ("published_at", match f.publishedAt with | none => .null | some t => .text t.iso)]

end Frame

end PoolWatch
