import PoolWatch.Proofs.Form
import PoolWatch.Proofs.Relay.Admission
import PoolWatch.Proofs.Rpc.Document
import PoolWatch.Proofs.Text.Utf8

/-!
# From a client through the relay

A client posts its call to the relay, which reads the endpoint and the document back from the form
and asks the endpoint as the client would have. Only line breaks are lost, and only the method can
have any.
-/

namespace PoolWatch

/-! ## Between the two -/

/-- What a request asks the host for. -/
def Http.Request.target (q : Http.Request) : String :=
  String.ofList (((q.url.toList.dropWhile (· != ':')).drop 3).dropWhile (· != '/'))

namespace Relay

/-- A client's request where it comes in. A client says how much it sends. -/
def Incoming.ofRequest (q : Http.Request) : Incoming :=
  ⟨q.method, q.target, q.contentType, Text.utf8Bytes q.body.toList, true⟩

def Outgoing.response (out : Outgoing) : Http.Response :=
  ⟨out.status, out.contentType, none, Text.utf8Bytes out.body.toList⟩

/-- A relay as the peer of its clients. -/
def network (s : RelaySettings) (route : Route) (upstream : Http.Network) : Http.Network :=
  fun _ q => .answers (handle s route upstream (.ofRequest q)).2.response

/-- A client's own request to the endpoint as the relay makes it. -/
def relayed (q : Http.Request) : Http.Request :=
  { q with userAgent := some agent, body := oneLine q.body }

variable {s : RelaySettings} {route : Route} {g : Gateway} {relay endpoint method : String}
  {hop : Http.Network} {q : Http.Request}

theorem response_still (out : Outgoing) (u : Url) : out.response.onward? u = none := by
  simp [Outgoing.response, Http.Response.onward?]

theorem network_still {upstream : Http.Network} (before : List Http.Request) (q : Http.Request)
    (e : Http.Errand) : e.onward? (network s route upstream before q) = none :=
  Http.onward?_head rfl (response_still _ _)

/-! ## The request -/

theorem call_direct (h : g.relayUrl = none) (upstream : Http.Network) (endpoint method : String) :
    g.call upstream endpoint method =
      ((Http.post upstream g.userAgent endpoint Gateway.xmlType (Rpc.document method)).1,
      Gateway.result endpoint endpoint g.limit
        (Http.post upstream g.userAgent endpoint Gateway.xmlType (Rpc.document method)).2) := by
  unfold Gateway.call
  rw [h]

theorem call_relayed (h : g.relayUrl = some relay) (hop : Http.Network) (endpoint method : String) :
    g.call hop endpoint method =
      ((Http.post hop g.userAgent relay Gateway.formType
        (Gateway.relayForm endpoint (Rpc.document method))).1,
      Gateway.result relay endpoint g.limit (Http.post hop g.userAgent relay Gateway.formType
        (Gateway.relayForm endpoint (Rpc.document method))).2) := by
  unfold Gateway.call
  rw [h]

theorem client_request (hrelay : g.relayUrl = some relay)
    (hq : q ∈ (g.call hop endpoint method).1) (hpost : q.method = "POST") :
    ∃ u, q = (Http.posting g.userAgent u Gateway.formType
      (Gateway.relayForm endpoint (Rpc.document method))).request := by
  rw [call_relayed hrelay] at hq
  obtain ⟨u, e, -, hkeeps | hkeeps, rfl⟩ := Http.mem_post hq
  · exact ⟨e.place, by rw [hkeeps]; rfl⟩
  · rw [hkeeps] at hpost
    exact absurd hpost (show "GET" ≠ "POST" by decide)

/-- The fields are read back as they were written. -/
theorem client_fields (hrelay : g.relayUrl = some relay)
    (hq : q ∈ (g.call hop endpoint method).1) (hpost : q.method = "POST") :
    Form.decode (Incoming.ofRequest q).body =
      [("rpcserver", endpoint), ("rpctext", Rpc.document method)] := by
  obtain ⟨u, rfl⟩ := client_request hrelay hq hpost
  simp only [Incoming.ofRequest, Http.Errand.request, Http.posting, Gateway.relayForm,
    Form.decode_encode]

theorem document_filled (method : String) : Filled (Rpc.document method) := by
  refine ⟨'<', ?_, by decide⟩
  have hopening : '<' ∈ Rpc.opening := by decide
  simp [Rpc.document, hopening]

theorem client_reaches (hrelay : g.relayUrl = some relay)
    (hq : q ∈ (g.call hop endpoint method).1) (hpost : q.method = "POST")
    (hroute : route.accepts (pathOf (Incoming.ofRequest q).target) = true)
    (hshort : (Incoming.ofRequest q).body.length ≤ min s.maxBodyBytes.toNat formLimit) :
    Reaches s route (.ofRequest q) := by
  obtain ⟨u, hposting⟩ := client_request hrelay hq hpost
  have htype : q.contentType = some Gateway.formType := by
    rw [hposting, Http.Errand.request, Http.posting]
  have hform : isForm q.contentType = true := by
    rw [htype]
    decide
  exact ⟨hpost, hroute, hform, by omega, by omega⟩

theorem client_admitted (hrelay : g.relayUrl = some relay)
    (hq : q ∈ (g.call hop endpoint method).1) (hreaches : Reaches s route (.ofRequest q))
    (hendpoint : Filled endpoint) :
    Admitted s route (.ofRequest q) endpoint (Rpc.document method) := by
  have hfields := client_fields hrelay hq hreaches.post
  refine ⟨hreaches, ?_, ?_, hendpoint, document_filled method⟩
  · simp [hfields, values]
  · simp [hfields, values]

theorem relay_post (hrelay : g.relayUrl = some relay) {upstream : Http.Network}
    (hq : q ∈ (g.call (network s route upstream) endpoint method).1) :
    ∃ u, Http.address relay = .ok u ∧ q = (Http.posting g.userAgent u Gateway.formType
      (Gateway.relayForm endpoint (Rpc.document method))).request := by
  rw [call_relayed hrelay] at hq
  cases hplace : Http.address relay with
  | error e =>
    rw [Http.post_nowhere hplace] at hq
    cases hq
  | ok u =>
    rw [Http.post_still hplace rfl (network_still _ _ _)] at hq
    exact ⟨u, rfl, List.mem_singleton.mp hq⟩

/-! ## What the endpoint is asked -/

theorem oneLine_eq_self (document : String) :
    oneLine document = document ↔ '\r' ∉ document.toList ∧ '\n' ∉ document.toList := by
  have hlist : oneLine document = document ↔
      document.toList.filter (fun c => c != '\n' && c != '\r') = document.toList := by
    rw [← String.toList_inj, oneLine, String.toList_ofList]
  rw [hlist, List.filter_eq_self]
  constructor
  · intro h
    constructor
    · intro hr
      exact absurd (h _ hr) (by decide)
    · intro hn
      exact absurd (h _ hn) (by decide)
  · rintro ⟨hr, hn⟩ c hc
    have hcn : c ≠ '\n' := fun h => hn (h ▸ hc)
    have hcr : c ≠ '\r' := fun h => hr (h ▸ hc)
    simp [hcn, hcr]

theorem forward_relayed (upstream : Http.Peer) (userAgent endpoint document : String) :
    (forward upstream endpoint document).1 =
      (Http.post upstream userAgent endpoint Gateway.xmlType document).1.map relayed := by
  unfold forward
  cases hplace : Http.address endpoint with
  | error e => simp only [Http.post_nowhere hplace, List.map_nil]
  | ok u =>
    have hrun := Http.run_map upstream (fun e => { e with agent, body := oneLine e.body }) relayed
      (fun _ => rfl)
      (fun e => by simp [relayed, Http.Errand.request, agent_trimmed])
      (fun e status place => by
        unfold Http.Errand.sentOn
        split <;> rfl)
      [] (Http.posting userAgent u Gateway.xmlType document) Http.redirectLimit
    simp only [Http.post_place hplace]
    exact congrArg Prod.fst hrun

/-- What the client itself asks: its document first, and perhaps what it is sent on to look at. -/
theorem direct_asks (h : g.relayUrl = none) (upstream : Http.Network) {asked : Http.Request}
    (hasked : asked ∈ (g.call upstream endpoint method).1) :
    asked.method = "POST" ∧ asked.contentType = some "text/xml" ∧
      asked.body = Rpc.document method ∨
    asked.method = "GET" ∧ asked.contentType = none ∧ asked.body = "" := by
  rw [call_direct h] at hasked
  obtain ⟨u, e, -, hkeeps | hkeeps, rfl⟩ := Http.mem_post hasked
  · rw [hkeeps]
    exact .inl ⟨rfl, rfl, rfl⟩
  · rw [hkeeps]
    exact .inr ⟨rfl, rfl, rfl⟩

theorem direct_head (h : g.relayUrl = none) (upstream : Http.Network) {asked : Http.Request}
    (hasked : asked ∈ (g.call upstream endpoint method).1.head?) : asked.method = "POST" := by
  rw [call_direct h] at hasked
  cases hplace : Http.address endpoint with
  | error e =>
    rw [Http.post_nowhere hplace] at hasked
    cases hasked
  | ok u =>
    rw [Http.post_place hplace] at hasked
    rw [(Http.comes_run _ _).head hasked]
    rfl

/-- The relay asks what the client itself would have asked, and exactly when. Line breaks of the
method, and no others, are lost on the way. -/
theorem relayed_request {direct client : Gateway} (hdirect : direct.relayUrl = none)
    (hrelay : client.relayUrl = some relay) (hendpoint : Filled endpoint)
    (hq : q ∈ (client.call hop endpoint method).1) (hpost : q.method = "POST")
    (hroute : route.accepts (pathOf (Incoming.ofRequest q).target) = true)
    (hshort : (Incoming.ofRequest q).body.length ≤ min s.maxBodyBytes.toNat formLimit)
    (upstream : Http.Peer) :
    Admitted s route (.ofRequest q) endpoint (Rpc.document method) ∧
    (handle s route upstream (.ofRequest q)).1 =
      (direct.call upstream endpoint method).1.map relayed ∧
    (∀ asked ∈ (direct.call upstream endpoint method).1.head?, asked.method = "POST") ∧
    ∀ asked ∈ (direct.call upstream endpoint method).1,
      (asked.method = "POST" ∧ asked.contentType = some "text/xml" ∧
        asked.body = Rpc.document method ∧
        ((relayed asked).body = asked.body ↔ '\r' ∉ method.toList ∧ '\n' ∉ method.toList)) ∨
      (asked.method = "GET" ∧ asked.contentType = none ∧ asked.body = "") := by
  have hadmitted :=
    client_admitted hrelay hq (client_reaches hrelay hq hpost hroute hshort) hendpoint
  refine ⟨hadmitted, ?_, fun asked => direct_head hdirect upstream, fun asked hasked => ?_⟩
  · rw [hadmitted.handle_eq, call_direct hdirect]
    exact forward_relayed upstream _ _ _
  · refine (direct_asks hdirect upstream hasked).imp_left ?_
    rintro ⟨hmethod, htype, hbody⟩
    refine ⟨hmethod, htype, hbody, ?_⟩
    change oneLine asked.body = asked.body ↔ _
    rw [hbody, oneLine_eq_self, Rpc.mem_document (.inr rfl), Rpc.mem_document (.inl rfl)]

/-! ## At the default settings -/

def socketPlace : Url :=
  ⟨"http".toList, [], none, some "127.0.0.1".toList, some 8112, "/xmlrpc-socket".toList, none, none⟩

/-- Clients at the default settings, without a relay and with the default one. -/
def straight : Gateway :=
  ⟨none, Settings.default.gateway.userAgent, Settings.default.monitor.requestTimeout⟩

def viaSocket : Gateway := { straight with relayUrl := some "http://127.0.0.1:8112/xmlrpc-socket" }

/-- What the client sends that goes through the relay. -/
def socketPost (endpoint method : String) : Http.Request :=
  (Http.posting viaSocket.userAgent socketPlace Gateway.formType
    (Gateway.relayForm endpoint (Rpc.document method))).request

theorem address_socket : Http.address "http://127.0.0.1:8112/xmlrpc-socket" = .ok socketPlace := by
  decide +kernel

theorem socketPost_sent (upstream : Http.Network) (endpoint method : String) :
    socketPost endpoint method ∈
      (viaSocket.call (network Settings.default.relay socketRoute upstream) endpoint method).1 := by
  rw [call_relayed rfl, Http.post_still address_socket rfl (network_still _ _ _)]
  exact List.mem_singleton_self _

theorem socketPost_onRoute (endpoint method : String) :
    socketRoute.accepts (pathOf (Incoming.ofRequest (socketPost endpoint method)).target) =
      true := by
  have htarget : (socketPost endpoint method).target = "/xmlrpc-socket" := by
    change (Http.Request.mk "POST" (Http.onWire socketPlace).text none none "").target = _
    decide +kernel
  rw [show (Incoming.ofRequest (socketPost endpoint method)).target =
    (socketPost endpoint method).target from rfl, htarget]
  decide +kernel

theorem socketPost_body (endpoint method : String) :
    (Incoming.ofRequest (socketPost endpoint method)).body = Text.utf8Bytes
      (List.intercalate ['&']
        [(Text.utf8Bytes "rpcserver".toList).flatMap Form.byteChars ++
            '=' :: (Text.utf8Bytes endpoint.toList).flatMap Form.byteChars,
          (Text.utf8Bytes "rpctext".toList).flatMap Form.byteChars ++
            '=' :: (Text.utf8Bytes (Rpc.opening ++ Rpc.escape method.toList ++ Rpc.closing)).flatMap
              Form.byteChars]) := by
  -- Only unfolded, so that the form can be measured without being put together.
  simp only [Incoming.ofRequest, socketPost, Http.Errand.request, Http.posting,
    Gateway.relayForm, Form.encode,
    List.map_cons, List.map_nil, Form.pairChars, Form.partChars, Rpc.document,
    String.toList_ofList]

def brokenMethod : String := "a<b\r\n+é"

theorem brokenMethod_relayed :
    Filled "http://localhost:8111/" ∧
    (Incoming.ofRequest (socketPost "http://localhost:8111/" brokenMethod)).body.length ≤
      min Settings.default.relay.maxBodyBytes.toNat formLimit ∧
    (handle Settings.default.relay socketRoute Http.Peer.drops
        (.ofRequest (socketPost "http://localhost:8111/" brokenMethod))).1 =
      (straight.call Http.Peer.drops "http://localhost:8111/" brokenMethod).1.map relayed ∧
    ∃ asked ∈ (straight.call Http.Peer.drops "http://localhost:8111/" brokenMethod).1,
      (relayed asked).body ≠ asked.body := by
  have hstraight : straight.relayUrl = none := rfl
  have hfilled : Filled "http://localhost:8111/" := ⟨'h', by decide, by decide⟩
  have hshort :
      (Incoming.ofRequest (socketPost "http://localhost:8111/" brokenMethod)).body.length ≤
        min Settings.default.relay.maxBodyBytes.toNat formLimit := by
    rw [socketPost_body]
    decide +kernel
  have hpost : (socketPost "http://localhost:8111/" brokenMethod).method = "POST" := rfl
  obtain ⟨-, hsent, -, hasked⟩ := relayed_request hstraight rfl hfilled
    (socketPost_sent Http.Peer.drops _ _) hpost (socketPost_onRoute _ _) hshort Http.Peer.drops
  refine ⟨hfilled, hshort, hsent, ?_⟩
  obtain ⟨u, hplace⟩ : ∃ u, Http.address "http://localhost:8111/" = .ok u :=
    ⟨⟨"http".toList, [], none, some "localhost".toList, some 8111, "/".toList, none, none⟩,
      by decide +kernel⟩
  obtain ⟨asked, hmem, hmethod⟩ : ∃ asked ∈
      (straight.call Http.Peer.drops "http://localhost:8111/" brokenMethod).1,
        asked.method = "POST" := by
    have hpeer : (Http.Peer.drops : Http.Network) [] (Http.posting straight.userAgent u
        Gateway.xmlType (Rpc.document brokenMethod)).request = .drops := rfl
    rw [call_direct hstraight, Http.post_still hplace hpeer rfl]
    exact ⟨_, List.mem_singleton_self _, rfl⟩
  obtain ⟨-, -, -, hbreaks⟩ | ⟨hget, -⟩ := hasked _ hmem
  · exact ⟨_, hmem, fun hsame => absurd (hbreaks.mp hsame).1 (by decide)⟩
  · exact absurd (hmethod.symm.trans hget) (by decide)

end Relay

end PoolWatch
