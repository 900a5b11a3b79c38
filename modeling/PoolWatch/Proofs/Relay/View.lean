import PoolWatch.Poll.Poller
import PoolWatch.Proofs.Relay.Hop

/-!
# What is shown through the relay

An exchange that fails is shown as the error view on both paths. A text is shown alike on both, as
long as what the relay cuts off had no say. The status of the endpoint stays with the relay: what
comes through it counts as a success.
-/

namespace PoolWatch

/-! ## From an exchange to a view -/

/-- What a text is shown as that came with a success. -/
def textView (text : String) : DisplayModel :=
  if Text.isBlankText text || Rpc.isFault text then .failed else (Refresh.ofText text).model

def answerView (a : Http.Answer) : DisplayModel :=
  match a.text with
  | .error _ => .failed
  | .ok text => if a.isSuccess then textView text else .failed

def exchangeView : Except Http.ExchangeError Http.Answer → DisplayModel
  | .error _ => .failed
  | .ok a => answerView a

theorem answerView_text (status : Nat) (text : String) : answerView ⟨status, .ok text⟩ =
    if 200 ≤ status ∧ status < 300 then textView text else .failed := by
  simp [answerView, Http.Answer.isSuccess]

theorem result_model (hop endpoint : String) (limit : Duration)
    (e : Except Http.ExchangeError Http.Answer) :
    (Refresh.ofResult (Gateway.result hop endpoint limit e)).model = exchangeView e := by
  cases e with
  | error e => rfl
  | ok a =>
    obtain ⟨status, text⟩ := a
    unfold Gateway.result exchangeView answerView
    cases text with
    | error e =>
      dsimp only
      split <;> rfl
    | ok text =>
      unfold textView
      dsimp only
      cases Http.Answer.isSuccess ⟨status, .ok text⟩ with
      | false => rfl
      | true =>
        cases Text.isBlankText text with
        | true => rfl
        | false =>
          cases Rpc.isFault text with
          | true => rfl
          | false => rfl

theorem textView_fromDeclaration {text : String} (h : Rpc.QuietAhead text.toList) :
    textView (Rpc.fromDeclaration text) = textView text := by
  unfold textView Refresh.ofText
  rw [Rpc.isBlankText_fromDeclaration, Rpc.isFault_fromDeclaration h,
    Rpc.payload?_fromDeclaration h]

theorem textView_ne_failed {text : String} (h : textView text ≠ .failed) :
    ∃ pool, Refresh.ofText text = .ok pool ∧ textView text = .table pool.render := by
  unfold textView at *
  split at h
  · exact absurd rfl h
  next hplain =>
  rw [if_neg hplain]
  cases hpool : Refresh.ofText text with
  | error e =>
    rw [hpool] at h
    exact absurd rfl h
  | ok pool => exact ⟨pool, rfl, rfl⟩

theorem Poller.cycle_shown (clock : Nat → Timestamp) (now : Nat) (p : Poller) (delay : Nat)
    (result : CallResult) :
    (p.step clock now (.cycle (.after delay result) none)).1.result =
      .shown (if delay ≤ p.settings.requestTimeoutMs.toNat then
        (Refresh.ofResult result).model else .failed) := by
  change Result.shown (Refresh.ofResult (Reply.result p.settings (.after delay result))).model = _
  unfold Reply.result
  dsimp only
  split <;> rfl

namespace Relay

/-! ## The two paths -/

/-- What an exchange of the relay with the endpoint is shown as at the other side of the relay. -/
def relayedView : Except Http.ExchangeError Http.Answer → DisplayModel
  | .error _ => .failed
  | .ok a =>
    match a.text with
    | .error _ => .failed
    | .ok text => textView (Rpc.fromDeclaration text)

def outgoingView (out : Outgoing) : DisplayModel := answerView ⟨out.status, .ok out.body⟩

theorem plain_view {status : Nat} (h : ¬ (200 ≤ status ∧ status < 300)) (body : String) :
    outgoingView (plain status body) = .failed := by
  rw [outgoingView, answerView_text]
  exact if_neg h

theorem ofError_view (e : RelayError) : outgoingView (ofError e) = .failed := by
  apply plain_view
  cases e <;> simp [RelayError.status]

theorem answer_view (target : String) (e : Except Http.ExchangeError Http.Answer) :
    outgoingView (answer target e) = relayedView e := by
  cases e with
  | error e => exact ofError_view _
  | ok a =>
    obtain ⟨status, text⟩ := a
    cases text with
    | error e => exact ofError_view _
    | ok text =>
      change answerView ⟨200, .ok (Rpc.fromDeclaration text)⟩ = textView (Rpc.fromDeclaration text)
      rw [answerView_text, if_pos (by decide)]

variable {s : RelaySettings} {route : Route} {relay endpoint method : String}
  {upstream : Http.Peer} {q : Http.Request}

theorem blank_exchange (h : ¬ Filled endpoint) (peer : Http.Peer) :
    Http.exchange peer endpoint = .error .unusable := by
  have hcolon : ':' ∉ endpoint.toList := fun hmem => h ⟨':', hmem, by decide⟩
  rw [Http.exchange, Http.address_noColon hcolon]
  rfl

theorem handle_view {client : Gateway} {hop : Http.Network} (hrelay : client.relayUrl = some relay)
    (hq : q ∈ (client.call hop endpoint method).1) (hreaches : Reaches s route (.ofRequest q)) :
    outgoingView (handle s route upstream (.ofRequest q)).2 =
      relayedView (Http.exchange upstream endpoint) := by
  by_cases hendpoint : Filled endpoint
  · rw [(client_admitted hrelay hq hreaches hendpoint).handle_eq]
    unfold forward
    dsimp only
    rw [answer_view, Http.post_exchange]
  · have hnot : ¬ ∃ server text, Admitted s route (.ofRequest q) server text := by
      rintro ⟨server, text, hadmitted⟩
      have hserver := hadmitted.oneServer
      rw [client_fields hrelay hq hreaches.post] at hserver
      obtain rfl : endpoint = server := by simpa [values] using hserver
      exact hendpoint hadmitted.serverFilled
    obtain ⟨-, hrefused⟩ := handle_refused hreaches hnot upstream
    have hout := hrefused.clientError
    rw [blank_exchange hendpoint, outgoingView, answerView_text, if_neg (by omega)]
    rfl

theorem direct_model {direct : Gateway} (hdirect : direct.relayUrl = none) (upstream : Http.Peer)
    (endpoint method : String) :
    (Refresh.ofResult (direct.call upstream endpoint method).2).model =
      exchangeView (Http.exchange upstream endpoint) := by
  rw [call_direct hdirect, result_model, Http.post_exchange]

theorem relay_reaches {client : Gateway} (hrelay : client.relayUrl = some relay)
    (hq : q ∈ (client.call (network s route upstream) endpoint method).1)
    (hroute : route.accepts (pathOf (Incoming.ofRequest q).target) = true)
    (hshort : (Incoming.ofRequest q).body.length ≤ min s.maxBodyBytes.toNat formLimit) :
    Reaches s route (.ofRequest q) := by
  refine client_reaches hrelay hq ?_ hroute hshort
  obtain ⟨u, -, rfl⟩ := relay_post hrelay hq
  rfl

theorem relayed_model {client : Gateway} {other : Http.Peer}
    (hrelay : client.relayUrl = some relay)
    (hq : q ∈ (client.call (network s route other) endpoint method).1)
    (hreaches : Reaches s route (.ofRequest q)) :
    (Refresh.ofResult (client.call (network s route upstream) endpoint method).2).model =
      relayedView (Http.exchange upstream endpoint) := by
  obtain ⟨u, hplace, hposting⟩ := relay_post hrelay hq
  rw [← handle_view hrelay hq hreaches, call_relayed hrelay, result_model,
    Http.post_still hplace rfl (network_still _ _ _), ← hposting]
  change answerView ⟨_, .ok (Http.bodyText _)⟩ = _
  rw [Outgoing.response, Http.bodyText_utf8Bytes]
  rfl

theorem relayed_cycle {client : Gateway} {other : Http.Peer}
    (hrelay : client.relayUrl = some relay)
    (hq : q ∈ (client.call (network s route other) endpoint method).1)
    (hreaches : Reaches s route (.ofRequest q))
    (clock : Nat → Timestamp) (now : Nat) (p : Poller) (delay : Nat) :
    (p.step clock now (.cycle (.after delay
      (client.call (network s route upstream) endpoint method).2) none)).1.result =
      .shown (if delay ≤ p.settings.requestTimeoutMs.toNat then
        relayedView (Http.exchange upstream endpoint) else .failed) := by
  rw [Poller.cycle_shown, relayed_model hrelay hq hreaches]

/-! ## An answer with noise in front -/

def noisyText : String := "noise<?xml?>\x7b\"resources\":[]\x7d"

def noisyAnswer (status : Nat) : Http.Response :=
  ⟨status, none, none, Text.utf8Bytes noisyText.toList⟩

theorem noisyAnswer_text (status : Nat) : Http.bodyText (noisyAnswer status).body = noisyText := by
  rw [noisyAnswer, Http.bodyText_utf8Bytes]

theorem noisyText_quiet : Rpc.QuietAhead noisyText.toList := by
  have htext : noisyText.toList = "noise".toList ++ (Rpc.documentStart ++
      "xml?>\x7b\"resources\":[]\x7d".toList) := by decide
  rw [htext]
  exact Rpc.quietAhead_append (by decide) (by decide) (by decide)

theorem noisyText_view : textView noisyText = .table ⟨[]⟩ := by decide +kernel

/-- A first cycle at the default settings whose call comes back at once. -/
def firstCycle (g : Gateway) (network : Http.Network) : Poller.Result :=
  ((Poller.new Settings.default.monitor).step (fun now => ⟨now, 0⟩) 0 (.cycle (.after 0
    (g.call network Settings.default.monitor.endpoint Settings.default.monitor.method).2)
    none)).1.result

/-- The relay at the default settings, in front of an endpoint that gives the noisy answer. -/
def noisyRelay (status : Nat) : Http.Network :=
  network Settings.default.relay socketRoute (Http.Peer.answers (noisyAnswer status))

theorem socketPost_short : (Incoming.ofRequest (socketPost Settings.default.monitor.endpoint
    Settings.default.monitor.method)).body.length ≤
      min Settings.default.relay.maxBodyBytes.toNat formLimit := by
  rw [socketPost_body]
  decide +kernel

/-! ## Cycles -/

/-- A full answer that is a success, and quiet in front of the declaration. -/
structure Healthy (a : Http.Response) : Prop where
  success : 200 ≤ a.status ∧ a.status < 300
  quiet : Rpc.QuietAhead (Http.bodyText a.body).toList

/-- What fails on both ways: no answer to the end, or only a part of its body. -/
theorem broken_views (h : ∀ a, upstream ≠ .answers a) (endpoint : String) :
    exchangeView (Http.exchange upstream endpoint) = .failed ∧
      relayedView (Http.exchange upstream endpoint) = .failed := by
  cases hexchange : Http.exchange upstream endpoint with
  | error e => exact ⟨rfl, rfl⟩
  | ok a =>
    have hmeet := Http.exchange_answer hexchange
    cases upstream with
    | answers r => exact absurd rfl (h r)
    | truncates r =>
      cases hmeet
      exact ⟨rfl, rfl⟩
    | halts r =>
      cases hmeet
      exact ⟨rfl, rfl⟩
    | unreachable | drops | stalls => cases hmeet

/-- An answer that sends nobody on counts as it is, if there is a place to ask at all. -/
theorem final_exchange {a : Http.Response}
    (h : ∀ u, Http.address endpoint = .ok u → a.onward? u = none) :
    Http.exchange (.answers a) endpoint =
      (Http.address endpoint).map fun _ => ⟨a.status, .ok (Http.bodyText a.body)⟩ := by
  cases hplace : Http.address endpoint with
  | error e => rw [Http.exchange, hplace]; rfl
  | ok u => exact Http.exchange_still hplace (Http.onward?_head rfl (h u hplace))

theorem Healthy.view {a : Http.Response} (h : Healthy a) :
    relayedView (.ok ⟨a.status, .ok (Http.bodyText a.body)⟩) =
      exchangeView (.ok ⟨a.status, .ok (Http.bodyText a.body)⟩) := by
  rw [exchangeView, answerView_text, if_pos h.success]
  exact textView_fromDeclaration h.quiet

/-- A cycle through the relay shows what a cycle without it shows: for every healthy answer that
comes in time on both ways or on neither, and for every exchange that fails. -/
theorem relayed_view {direct client : Gateway} (hdirect : direct.relayUrl = none)
    (hrelay : client.relayUrl = some relay) {p p' : Poller} (hsettings : p'.settings = p.settings)
    (hq : q ∈ (client.call (network s route upstream) p.settings.endpoint p.settings.method).1)
    (hroute : route.accepts (pathOf (Incoming.ofRequest q).target) = true)
    (hshort : (Incoming.ofRequest q).body.length ≤ min s.maxBodyBytes.toNat formLimit)
    {delay delay' : Nat} (hanswer : ∀ a, upstream = .answers a → Healthy a ∧
      (delay ≤ p.settings.requestTimeoutMs.toNat ↔ delay' ≤ p.settings.requestTimeoutMs.toNat))
    (clock clock' : Nat → Timestamp) (now now' : Nat) :
    ∃ model,
      (p.step clock now (.cycle (.after delay
        (direct.call upstream p.settings.endpoint p.settings.method).2) none)).1.result =
          .shown model ∧
      (p'.step clock' now' (.cycle (.after delay' (client.call (network s route upstream)
        p.settings.endpoint p.settings.method).2) none)).1.result = .shown model := by
  have hreaches := relay_reaches hrelay hq hroute hshort
  rw [Poller.cycle_shown, direct_model hdirect, relayed_cycle hrelay hq hreaches, hsettings]
  refine ⟨_, rfl, ?_⟩
  by_cases hanswers : ∃ a, upstream = .answers a
  · obtain ⟨a, rfl⟩ := hanswers
    obtain ⟨hhealthy, htime⟩ := hanswer a rfl
    rw [final_exchange fun u _ => Http.success_still hhealthy.success u]
    cases Http.address p.settings.endpoint with
    | error e => simp only [Except.map, relayedView, exchangeView, ite_self]
    | ok u => rw [Except.map, hhealthy.view, if_congr htime rfl rfl]
  · obtain ⟨hview, hview'⟩ := broken_views (fun a ha => hanswers ⟨a, ha⟩) p.settings.endpoint
    rw [hview, hview', ite_self, ite_self]

theorem noisyAnswer_shown : Healthy (noisyAnswer 200) ∧ ∃ model,
    firstCycle straight (Http.Peer.answers (noisyAnswer 200)) = .shown model ∧
    firstCycle viaSocket (noisyRelay 200) = .shown model := by
  have hhealthy : Healthy (noisyAnswer 200) := by
    refine ⟨by decide, ?_⟩
    rw [noisyAnswer_text]
    exact noisyText_quiet
  have hstraight : straight.relayUrl = none := rfl
  have hsettings : (Poller.new Settings.default.monitor).settings =
      (Poller.new Settings.default.monitor).settings := rfl
  have hsent := socketPost_sent (Http.Peer.answers (noisyAnswer 200))
    Settings.default.monitor.endpoint Settings.default.monitor.method
  have hanswer : ∀ a, Http.Peer.answers (noisyAnswer 200) = .answers a → Healthy a ∧
      (0 ≤ (Poller.new Settings.default.monitor).settings.requestTimeoutMs.toNat ↔
        0 ≤ (Poller.new Settings.default.monitor).settings.requestTimeoutMs.toNat) := by
    intro a ha
    obtain rfl := Http.Peer.answers.inj ha
    exact ⟨hhealthy, Iff.rfl⟩
  exact ⟨hhealthy, relayed_view hstraight rfl hsettings hsent (socketPost_onRoute _ _)
    socketPost_short hanswer _ _ 0 0⟩

/-! ## The status of the endpoint -/

/-- The relay answers with a success whatever the endpoint's status was. -/
theorem errorStatus_shown :
    ¬ (200 ≤ (noisyAnswer 500).status ∧ (noisyAnswer 500).status < 300) ∧
    firstCycle viaSocket (noisyRelay 500) = .shown (.table ⟨[]⟩) ∧
    DisplayModel.table ⟨[]⟩ ≠ .failed := by
  refine ⟨by decide, ?_, by decide⟩
  have hplace : Http.address Settings.default.monitor.endpoint = .ok ⟨"http".toList, [], none,
      some "localhost".toList, some 8111, "/".toList, none, none⟩ := by
    decide +kernel
  have hsent := socketPost_sent (Http.Peer.answers (noisyAnswer 500))
    Settings.default.monitor.endpoint Settings.default.monitor.method
  have hreaches := relay_reaches rfl hsent (socketPost_onRoute _ _) socketPost_short
  unfold firstCycle noisyRelay
  rw [relayed_cycle rfl hsent hreaches, if_pos (Nat.zero_le _), Http.exchange_still hplace rfl]
  change Poller.Result.shown (textView (Rpc.fromDeclaration (Http.bodyText _))) = _
  rw [noisyAnswer_text, textView_fromDeclaration noisyText_quiet, noisyText_view]

theorem status_view {a : Http.Response} (h : ¬ (200 ≤ a.status ∧ a.status < 300))
    (endpoint : String) : exchangeView (Http.exchange (.answers a) endpoint) = .failed := by
  cases hexchange : Http.exchange (.answers a) endpoint with
  | error e => rfl
  | ok b =>
    have hmeet := Http.exchange_answer hexchange
    cases hmeet
    rw [exchangeView, answerView_text, if_neg h]

theorem relayedView_status {a : Http.Response}
    (h : ∀ u, Http.address endpoint = .ok u → a.onward? u = none) :
    relayedView (Http.exchange (.answers { a with status := 200 }) endpoint) =
      relayedView (Http.exchange (.answers a) endpoint) := by
  have hsuccess : ∀ u, Http.address endpoint = .ok u →
      ({ a with status := 200 } : Http.Response).onward? u = none := by
    have hstatus : 200 ≤ 200 ∧ 200 < 300 := by decide
    exact fun u _ => Http.success_still (r := { a with status := 200 }) hstatus u
  rw [final_exchange h, final_exchange hsuccess]
  cases Http.address endpoint with
  | error e => rfl
  | ok u => rfl

theorem relayedView_ne_failed {a : Http.Response}
    (h : ∀ u, Http.address endpoint = .ok u → a.onward? u = none)
    (hshown : relayedView (Http.exchange (.answers a) endpoint) ≠ .failed) :
    ∃ pool, Refresh.ofText (Rpc.fromDeclaration (Http.bodyText a.body)) = .ok pool ∧
      relayedView (Http.exchange (.answers a) endpoint) = .table pool.render := by
  rw [final_exchange h] at hshown ⊢
  cases hplace : Http.address endpoint with
  | error e =>
    rw [hplace] at hshown
    exact absurd rfl hshown
  | ok u =>
    rw [hplace] at hshown
    exact textView_ne_failed hshown

/-- Without a relay a full answer that is no success ends in the error view. A relay keeps the
status of the final answer to itself: the cycle ends as it would for a success with that body, and
shows data only where the body carries a pool. -/
theorem errorStatus_view {direct client : Gateway} (hdirect : direct.relayUrl = none)
    (hrelay : client.relayUrl = some relay) {a : Http.Response}
    (hstatus : ¬ (200 ≤ a.status ∧ a.status < 300)) {p p' : Poller}
    (hfinal : ∀ u, Http.address p'.settings.endpoint = .ok u → a.onward? u = none)
    (hq : q ∈ (client.call (network s route (Http.Peer.answers a))
      p'.settings.endpoint p'.settings.method).1)
    (hroute : route.accepts (pathOf (Incoming.ofRequest q).target) = true)
    (hshort : (Incoming.ofRequest q).body.length ≤ min s.maxBodyBytes.toNat formLimit)
    (clock clock' : Nat → Timestamp) (now now' delay delay' : Nat) :
    (p.step clock now (.cycle (.after delay (direct.call (Http.Peer.answers a)
      p.settings.endpoint p.settings.method).2) none)).1.result = .shown .failed ∧
    ∃ model,
      (p'.step clock' now' (.cycle (.after delay' (client.call (network s route
        (Http.Peer.answers a)) p'.settings.endpoint p'.settings.method).2) none)).1.result =
          .shown model ∧
      (p'.step clock' now' (.cycle (.after delay' (client.call (network s route
        (Http.Peer.answers { a with status := 200 })) p'.settings.endpoint
          p'.settings.method).2) none)).1.result = .shown model ∧
      (model ≠ .failed → ∃ pool,
        Refresh.ofText (Rpc.fromDeclaration (Http.bodyText a.body)) = .ok pool ∧
          model = .table pool.render) := by
  have hreaches := relay_reaches hrelay hq hroute hshort
  constructor
  · rw [Poller.cycle_shown, direct_model hdirect, status_view hstatus, ite_self]
  rw [relayed_cycle hrelay hq hreaches, relayed_cycle hrelay hq hreaches,
    relayedView_status hfinal]
  refine ⟨_, rfl, rfl, ?_⟩
  split
  · exact relayedView_ne_failed hfinal
  · exact absurd rfl

theorem errorStatus_hidden : ¬ (200 ≤ (noisyAnswer 500).status ∧ (noisyAnswer 500).status < 300) ∧
    firstCycle straight (Http.Peer.answers (noisyAnswer 500)) = .shown .failed ∧ ∃ model,
      firstCycle viaSocket (noisyRelay 500) = .shown model ∧
      firstCycle viaSocket (noisyRelay 200) = .shown model := by
  have hstraight : straight.relayUrl = none := rfl
  have hstatus : ¬ (200 ≤ (noisyAnswer 500).status ∧ (noisyAnswer 500).status < 300) := by decide
  have hsent := socketPost_sent (Http.Peer.answers (noisyAnswer 500))
    (Poller.new Settings.default.monitor).settings.endpoint
    (Poller.new Settings.default.monitor).settings.method
  have hfinal : ∀ u, Http.address (Poller.new Settings.default.monitor).settings.endpoint = .ok u →
      (noisyAnswer 500).onward? u = none := fun _ _ => rfl
  obtain ⟨hdirect, model, hshown, hsame, -⟩ := errorStatus_view hstraight rfl hstatus hfinal hsent
    (socketPost_onRoute _ _) socketPost_short (fun now => ⟨now, 0⟩) (fun now => ⟨now, 0⟩) 0 0 0 0
  exact ⟨hstatus, hdirect, model, hshown, hsame⟩

end Relay

end PoolWatch
