import PoolWatch.Call.Error
import PoolWatch.Display.Model
import PoolWatch.Envelope
import PoolWatch.Pool.Decode
import PoolWatch.Settings.Basic

/-!
# The outcome of one call

A reply comes after some time or never. The call gives up at the timeout. A reply that comes just
then still counts. The text is then cut down to its payload, and the payload decoded.
-/

namespace PoolWatch

abbrev CallResult := Except CallError String

/-- How the other side behaves. Times are in milliseconds. -/
inductive Reply
  | after (delay : Nat) (result : CallResult)
  | never

/-- Why a refresh has no pool, by the stage that failed. -/
inductive RefreshError
  | transport (e : CallError)
  | envelope
  | decode (e : DecodeError)

/-- What is shown in place of a table. -/
def RefreshError.message : RefreshError → String
  | transport e => "Transport Error: " ++ e.message
  | envelope => "Envelope Error: " ++ Envelope.notFoundMessage
  | decode e => "Decode Error: " ++ e.message

def RefreshError.kind : RefreshError → String
  | transport _ => "transport"
  | envelope => "envelope"
  | decode _ => "decode"

abbrev Refresh := Except RefreshError Pool

namespace Reply

/-- How long a call with this timeout takes. -/
def duration (timeout : Nat) : Reply → Nat
  | after delay _ => min delay timeout
  | never => timeout

/-- What a caller gets who asked as the settings say. -/
def result (m : MonitorSettings) : Reply → CallResult
  | after delay r =>
    if delay ≤ m.requestTimeoutMs.toNat then r else .error ⟨m.endpoint, .timeout m.requestTimeout⟩
  | never => .error ⟨m.endpoint, .timeout m.requestTimeout⟩

end Reply

/-- Finds the payload of an answer and decodes it. -/
def Refresh.ofText (text : String) : Refresh :=
  match Envelope.payload? text with
  | none => .error .envelope
  | some payload =>
    match Pool.decode payload with
    | .error e => .error (.decode e)
    | .ok pool => .ok pool

def Refresh.ofResult : CallResult → Refresh
  | .error e => .error (.transport e)
  | .ok text => .ofText text

/-- What comes of a reply within the time that a call has. -/
def Reply.refresh (m : MonitorSettings) (r : Reply) : Refresh := .ofResult (r.result m)

/-- The table of the pool, or the one error view. -/
def Refresh.model : Refresh → DisplayModel
  | .ok pool => .table pool.render
  | .error _ => .failed

end PoolWatch
