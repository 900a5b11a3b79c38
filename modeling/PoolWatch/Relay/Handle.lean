import PoolWatch.Call.Gateway
import PoolWatch.Relay.Error
import PoolWatch.Relay.Route

/-!
# The relay

A client that cannot reach an endpoint itself posts a form with the endpoint and a document. The
relay posts the document there and gives back the answer from its XML declaration on. Requests of
any other kind are refused, and nothing is sent for them.
-/

namespace PoolWatch.Relay

/-- A request to the relay. -/
structure Incoming where
  method : String
  target : String
  contentType : Option String
  body : List UInt8
  /-- Whether the head says how long the body is. -/
  declared : Bool

/-- What the relay answers. -/
structure Outgoing where
  status : Nat
  contentType : Option String
  allow : Option String
  body : String
deriving DecidableEq

def plainType : String := "text/plain; charset=utf-8"

def plain (status : Nat) (body : String) : Outgoing := ⟨status, some plainType, none, body⟩

def ofError (e : RelayError) : Outgoing := plain e.status e.message

/-! ## The form -/

/-- The two fields of a form, as far as they are given. -/
structure Order where
  server : Option String
  text : Option String
deriving DecidableEq

/-- Takes the fields in turn. Other names are passed over. A field that comes twice is an error, and
is named. -/
def readOrder (o : Order) : List (String × String) → Except String Order
  | [] => .ok o
  | (name, value) :: rest =>
    if name = "rpcserver" then
      if o.server.isSome then .error name else readOrder { o with server := some value } rest
    else if name = "rpctext" then
      if o.text.isSome then .error name else readOrder { o with text := some value } rest
    else readOrder o rest

/-- A field that is blank counts as missing. -/
def filled (field : Option String) : Option String := field.filter fun s => !Text.isBlankText s

def order? (o : Order) : Except RelayError (String × String) :=
  match filled o.server with
  | none => .error .missingServer
  | some server =>
    match filled o.text with
    | none => .error .missingText
    | some text => .ok (server, text)

/-! ## Passing on -/

/-- The document without its line breaks. -/
def oneLine (document : String) : String :=
  String.ofList (document.toList.filter fun c => c != '\n' && c != '\r')

def agent : String := "cloud-pool-monitor relay"

/-- What the relay makes of an exchange with the target. The target's status does not matter. -/
def answer (target : String) : Except Http.ExchangeError Http.Answer → Outgoing
  | .error e => ofError (.ofExchange target e)
  | .ok a =>
    match a.text with
    | .error e => ofError (.ofExchange target e)
    | .ok text => ⟨200, some Gateway.xmlType, none, Rpc.fromDeclaration text⟩

/-- Posts a document, and makes an answer of what came of it. -/
def forward (network : Http.Network) (target document : String) :
    List Http.Request × Outgoing :=
  let (sent, result) := Http.post network agent target Gateway.xmlType (oneLine document)
  (sent, answer target result)

/-! ## Admission -/

/-- The most that a form may hold whatever the settings say. -/
def formLimit : Nat := 2097152

/-- A content type that says form, as it is written. -/
def isForm (contentType : Option String) : Bool :=
  contentType.any fun t =>
    Gateway.formType.toList.isPrefixOf t.toList &&
      t.toList.all fun c => c == '\t' || (0x20 ≤ c.toNat && c.toNat < 0x7f)

/-- The path of a request, without the query and the fragment. -/
def pathOf (target : String) : List Char :=
  target.toList.takeWhile fun c => c != '?' && c != '#'

/-- A post to the route: the form is read and passed on. -/
def accept (s : RelaySettings) (network : Http.Network) (r : Incoming) :
    List Http.Request × Outgoing :=
  if !isForm r.contentType then
    ([], plain 415 ("Form requests must have `Content-Type: " ++ Gateway.formType ++ "`"))
  else if min s.maxBodyBytes.toNat formLimit < r.body.length then
    ([], plain 413 "Failed to buffer the request body: length limit exceeded")
  else match readOrder ⟨none, none⟩ (Form.decode r.body) with
    | .error name =>
      ([], plain 422 ("Failed to deserialize form body: duplicate field `" ++ name ++ "`"))
    | .ok o =>
      match order? o with
      | .error e => ([], ofError e)
      | .ok (target, document) => forward network target document

/-- Who may use a path: posts on the route, and nobody elsewhere. -/
def dispatch (s : RelaySettings) (route : Route) (network : Http.Network) (r : Incoming) :
    List Http.Request × Outgoing :=
  let allow := if route.accepts (pathOf r.target) && r.method != "POST" then some "POST" else none
  if r.declared && s.maxBodyBytes.toNat < r.body.length then
    ([], { plain 413 "length limit exceeded" with allow })
  else if !route.accepts (pathOf r.target) then ([], ⟨404, none, none, ""⟩)
  else if r.method != "POST" then ([], ⟨405, none, allow, ""⟩)
  else accept s network r

/-- The answer to one request, and what was sent for it. A head is asked for without the body. -/
def handle (s : RelaySettings) (route : Route) (network : Http.Network) (r : Incoming) :
    List Http.Request × Outgoing :=
  let (sent, out) := dispatch s route network r
  (sent, if r.method = "HEAD" then { out with body := "" } else out)

end PoolWatch.Relay
