import PoolWatch.Text.Blank
import PoolWatch.Url.Basic

/-!
# HTTP exchanges

A client asks a peer, which answers in full or fails in one of a few ways. An answer may send the
client on to another place. It then asks there, so many times and no more.
-/

namespace PoolWatch.Http

structure Request where
  method : String
  url : String
  contentType : Option String
  userAgent : Option String
  body : String
deriving DecidableEq

structure Response where
  status : Nat
  contentType : Option String
  /-- Where else to ask, if the head says so in a readable text. -/
  location : Option String
  body : List UInt8
deriving DecidableEq

/-- What the other side does. -/
inductive Peer
  /-- No connection comes about. -/
  | unreachable
  /-- The connection is closed without an answer. -/
  | drops
  | stalls
  | answers (r : Response)
  /-- The head comes, and less of the body than it says. -/
  | truncates (r : Response)
  /-- The head comes, and the rest of the body never does. -/
  | halts (r : Response)

/-- The answer whose head comes, whatever comes of its body. -/
def Peer.head? : Peer → Option Response
  | .unreachable | .drops | .stalls => none
  | .answers r | .truncates r | .halts r => some r

def Peer.receives : Peer → Bool
  | .unreachable => false
  | _ => true

/-- What becomes of a request. It may depend on the requests that came before it in the same
exchange. -/
abbrev Network := List Request → Request → Peer

instance : Coe Peer Network := ⟨fun peer _ _ => peer⟩

/-- Why there is no answer, or not all of its body. -/
inductive ExchangeError
  | unusable
  /-- The address is one, but not of a place that can be asked. -/
  | badAddress (url : String)
  | notSent (url : String)
  /-- The place has sent the client on once too often. -/
  | tooFar (url : String)
  | timedOut
  | cutShort
deriving DecidableEq

def ExchangeError.message : ExchangeError → String
  | unusable => "builder error"
  | badAddress url => "builder error for url (" ++ url ++ ")"
  | notSent url => "error sending request for url (" ++ url ++ ")"
  | tooFar url => "error following redirect for url (" ++ url ++ ")"
  | timedOut => "operation timed out"
  | cutShort => "error decoding response body"

/-- A status, and the text of the body if all of it came. -/
structure Answer where
  status : Nat
  text : Except ExchangeError String

def Answer.isSuccess (a : Answer) : Bool := 200 ≤ a.status && a.status < 300

/-! ## Addresses -/

/-- Whether a text is UTF-8 behind its percent encoding. -/
def isPlain (cs : List Char) : Bool :=
  (Text.decodeUtf8? (Url.percentDecode (Text.utf8Bytes cs))).isSome

/-- The address without the credentials, which travel in the head. -/
def withoutCredentials (u : Url) : Url :=
  if isPlain u.user && (!u.user.isEmpty || u.password.any isPlain) then
    { u with user := [], password := none }
  else u

/-- The address as it goes over the wire. The fragment stays at home. -/
def onWire (u : Url) : Url := { u with fragment := none }

/-- What may stand in a host on the wire. -/
def isWireChar (c : Char) : Bool := c.isAlphanum || "!$&'()*+,-.:;=[]_~".toList.contains c

/-- The longest address that can go over the wire. -/
def lengthLimit : Nat := 65534

/-- Whether a text without slashes passes for a host, with a user before it or a port behind. -/
def passesForHost (cs : List Char) : Bool :=
  let (user, host) := Url.cutUser cs
  (user.getD []).all (fun c => isWireChar c || c == '%') &&
    host.all isWireChar && !host.isEmpty && host.count ':' ≤ 1

/-- Whether an address can go over the wire. One without a host must pass for a host itself. -/
def fitsWire (u : Url) : Bool :=
  u.chars.length ≤ lengthLimit && match u.host with
    | some host => !host.isEmpty && host.all isWireChar
    | none => passesForHost u.chars

/-- Only places on the web can be asked. -/
def isWeb (u : Url) : Bool := u.scheme == "http".toList || u.scheme == "https".toList

/-- The place that an address names, if it can be asked. -/
def address (url : String) : Except ExchangeError Url :=
  match Url.parse? url with
  | none => .error .unusable
  | some u =>
    let u := withoutCredentials u
    if isWeb u && fitsWire u then .ok u else .error (.badAddress u.text)

/-! ## Errands -/

/-- What a client has to ask at a place. -/
structure Errand where
  place : Url
  method : String
  contentType : Option String
  agent : String
  body : String

/-- The request for an errand. Blanks around the name of a client are lost. -/
def Errand.request (e : Errand) : Request :=
  ⟨e.method, (onWire e.place).text, e.contentType, some (Text.trim e.agent), e.body⟩

def posting (agent : String) (place : Url) (contentType body : String) : Errand :=
  ⟨place, "POST", some contentType, agent, body⟩

/-- The statuses that send a client on with the same errand. -/
def repeating : List Nat := [307, 308]

/-- The statuses that send a client on to have a look at the other place and no more. -/
def looking : List Nat := [301, 302, 303]

/-- Where the head of an answer sends the client on to. A location that names no address is
overlooked. -/
def Response.onward? (r : Response) (place : Url) : Option Url :=
  if repeating.contains r.status || looking.contains r.status then
    (r.location.bind place.join?).filter fitsWire
  else none

/-- The errand as it goes on at another place. -/
def Errand.sentOn (e : Errand) (status : Nat) (place : Url) : Errand :=
  if repeating.contains status then { e with place } else ⟨place, "GET", none, e.agent, ""⟩

/-- What a peer makes of an errand that it sends on. -/
def Errand.onward? (e : Errand) (peer : Peer) : Option Errand :=
  peer.head?.bind fun r => (r.onward? e.place).map (e.sentOn r.status)

/-! ## The exchange -/

/-- The text of a body, in which what is no UTF-8 is replaced. -/
def bodyText (bytes : List UInt8) : String := String.ofList (Text.decodeUtf8 bytes)

/-- What comes of a request that is not sent on. -/
def meet (url : String) : Peer → Except ExchangeError Answer
  | .unreachable => .error (.notSent url)
  | .drops => .error (.notSent url)
  | .stalls => .error .timedOut
  | .answers r => .ok ⟨r.status, .ok (bodyText r.body)⟩
  | .truncates r => .ok ⟨r.status, .error .cutShort⟩
  | .halts r => .ok ⟨r.status, .error .timedOut⟩

/-- How often a client lets itself be sent on. -/
def redirectLimit : Nat := 10

/-- Runs an errand after the requests before it. The client may be sent on `left` times more. -/
def run (network : Network) (before : List Request) (e : Errand) (left : Nat) :
    List Request × Except ExchangeError Answer :=
  let peer := network before e.request
  match e.onward? peer, left with
  | none, _ => (before ++ (if peer.receives then [e.request] else []), meet e.place.text peer)
  | some _, 0 => (before ++ [e.request], .error (.tooFar e.place.text))
  | some next, left + 1 =>
    if isWeb next.place then run network (before ++ [e.request]) next left
    else (before ++ [e.request], .error (.badAddress next.place.text))

/-- All requests of one exchange that begins with a post, and what comes of it. -/
def post (network : Network) (agent url contentType body : String) :
    List Request × Except ExchangeError Answer :=
  match address url with
  | .error e => ([], .error e)
  | .ok place => run network [] (posting agent place contentType body) redirectLimit

end PoolWatch.Http
