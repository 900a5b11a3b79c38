import PoolWatch.Duration
import PoolWatch.Number.Integer

/-!
# Failed calls

A call fails for one of five causes. The endpoint says who is to blame.
-/

namespace PoolWatch

/-- Why a call has no result. -/
inductive CallCause
  | request (message : String)
  /-- The answer was not a success. -/
  | status (code : Nat)
  | timeout (limit : Duration)
  /-- The answer reports a fault in place of a value. -/
  | fault
  /-- The answer holds nothing but blanks. -/
  | empty
deriving DecidableEq

/-- A failed call, and the endpoint that is to blame for it. -/
structure CallError where
  endpoint : String
  cause : CallCause
deriving DecidableEq

def CallError.message (e : CallError) : String :=
  match e.cause with
  | .request message => "Request to " ++ e.endpoint ++ " failed: " ++ message
  | .status code => e.endpoint ++ " answered with HTTP " ++ Integer.text code
  | .timeout limit => "No response from " ++ e.endpoint ++ " within " ++ limit.text
  | .fault => "RPC fault returned by " ++ e.endpoint
  | .empty => "Empty response from " ++ e.endpoint

end PoolWatch
