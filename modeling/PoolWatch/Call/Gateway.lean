import PoolWatch.Call.Error
import PoolWatch.Form
import PoolWatch.Http.Exchange
import PoolWatch.Rpc.Document
import PoolWatch.Settings.Basic

/-!
# The gateway

A call goes straight to its endpoint, or to a relay that passes it on. An exchange that fails is the
fault of the host that was asked. An empty answer or a fault is that of the endpoint.
-/

namespace PoolWatch

/-- How calls are made: over a relay or not, under which name, and how long at most. -/
structure Gateway where
  relayUrl : Option String
  userAgent : String
  limit : Duration
deriving DecidableEq

namespace Gateway

/-- A name that a client can give itself: no controls but the tab. -/
def isAgent (agent : String) : Bool :=
  agent.toList.all fun c => c == '\t' || (0x20 ≤ c.toNat && c.toNat ≠ 0x7f)

/-- An empty relay address is as good as none. -/
def ofSettings (s : Settings) : Except CallError Gateway :=
  let relayUrl := match s.gateway.relayUrl with
    | some "" | none => none
    | some url => some url
  if isAgent s.gateway.userAgent then .ok ⟨relayUrl, s.gateway.userAgent, s.monitor.requestTimeout⟩
  else .error ⟨"", .request Http.ExchangeError.unusable.message⟩

/-- A failed exchange is blamed on the hop that it was made with. -/
def errorOf (hop : String) (limit : Duration) : Http.ExchangeError → CallError
  | .timedOut => ⟨hop, .timeout limit⟩
  | e => ⟨hop, .request e.message⟩

/-- What a call makes of an exchange. `hop` is the host that was asked. -/
def result (hop endpoint : String) (limit : Duration) :
    Except Http.ExchangeError Http.Answer → Except CallError String
  | .error e => .error (errorOf hop limit e)
  | .ok a =>
    if !a.isSuccess then .error ⟨hop, .status a.status⟩
    else match a.text with
      | .error e => .error (errorOf hop limit e)
      | .ok text =>
        if Text.isBlankText text then .error ⟨endpoint, .empty⟩
        else if Rpc.isFault text then .error ⟨endpoint, .fault⟩
        else .ok text

def relayForm (endpoint document : String) : String :=
  Form.encode [("rpcserver", endpoint), ("rpctext", document)]

def formType : String := "application/x-www-form-urlencoded"

def xmlType : String := "text/xml"

/-- The requests of a call, and the text that comes back or what it failed for. -/
def call (g : Gateway) (network : Http.Network) (endpoint method : String) :
    List Http.Request × Except CallError String :=
  let document := Rpc.document method
  match g.relayUrl with
  | none =>
    let (sent, answer) := Http.post network g.userAgent endpoint xmlType document
    (sent, result endpoint endpoint g.limit answer)
  | some relay =>
    let (sent, answer) := Http.post network g.userAgent relay formType (relayForm endpoint document)
    (sent, result relay endpoint g.limit answer)

end Gateway

end PoolWatch
