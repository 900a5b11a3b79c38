import PoolWatch.Http.Exchange

/-!
# Why the relay does not pass on an answer
-/

namespace PoolWatch

inductive RelayError
  | missingServer
  | missingText
  | timeout (target : String)
  | failed (target message : String)
deriving DecidableEq

namespace RelayError

/-- A timeout has an answer of its own. All other failures share one. -/
def ofExchange (target : String) : Http.ExchangeError → RelayError
  | .timedOut => timeout target
  | e => failed target e.message

def message : RelayError → String
  | missingServer => "No rpcserver specified."
  | missingText => "No rpctext specified."
  | timeout target => "Upstream " ++ target ++ " did not answer in time"
  | failed target message => "Upstream " ++ target ++ " failed: " ++ message

/-- The client is to blame for what is missing, the other side for the rest. -/
def status : RelayError → Nat
  | missingServer | missingText => 400
  | timeout _ => 504
  | failed _ _ => 502

end RelayError

end PoolWatch
