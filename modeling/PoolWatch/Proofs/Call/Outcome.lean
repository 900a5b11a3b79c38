import PoolWatch.Poll.Outcome
import PoolWatch.Proofs.Relay.Hop
import PoolWatch.Proofs.Text.Search

/-!
# How a call ends

A call asks the relay if there is one and the endpoint if not, and goes on only where it is sent on.
It comes to a text exactly if the final answer arrives whole, is a success, holds more than blanks
and no fault. Of several failures the earliest one counts: the head comes before the body, and the
body before what it says.
-/

namespace PoolWatch.Gateway

/-! ## The ends -/

/-- The host that a call goes to. -/
def hop (g : Gateway) (endpoint : String) : String := g.relayUrl.getD endpoint

/-- What a call has to ask its host. -/
def asking (g : Gateway) (endpoint method : String) (u : Url) : Http.Errand :=
  match g.relayUrl with
  | none => Http.posting g.userAgent u xmlType (Rpc.document method)
  | some _ => Http.posting g.userAgent u formType (relayForm endpoint (Rpc.document method))

/-- The host of a call is asked, with what is sent for it and what comes of it. -/
structure Meets (g : Gateway) (network : Http.Network) (endpoint method : String) (u : Url)
    (sent : List Http.Request) (met : Except Http.ExchangeError Http.Answer) : Prop where
  place : Http.address (g.hop endpoint) = .ok u
  comes : Http.Comes network (g.asking endpoint method u) sent met

def Succeeds (status : Nat) : Prop := 200 ≤ status ∧ status ≤ 299

/-- All ways in which a call can end, with what it has sent. -/
inductive Ends (g : Gateway) (network : Http.Network) (endpoint method : String) :
    List Http.Request → CallResult → Prop
  | nowhere {e : Http.ExchangeError} : Http.address (g.hop endpoint) = .error e →
    Ends g network endpoint method [] (.error ⟨g.hop endpoint, .request e.message⟩)
  | failed {u : Url} {sent : List Http.Request} {e : Http.ExchangeError} :
    g.Meets network endpoint method u sent (.error e) → e ≠ .timedOut →
    Ends g network endpoint method sent (.error ⟨g.hop endpoint, .request e.message⟩)
  | late {u : Url} {sent : List Http.Request} :
    g.Meets network endpoint method u sent (.error .timedOut) →
    Ends g network endpoint method sent (.error ⟨g.hop endpoint, .timeout g.limit⟩)
  | refused {u : Url} {sent : List Http.Request} {status : Nat}
    {text : Except Http.ExchangeError String} :
    g.Meets network endpoint method u sent (.ok ⟨status, text⟩) → ¬ Succeeds status →
    Ends g network endpoint method sent (.error ⟨g.hop endpoint, .status status⟩)
  | cut {u : Url} {sent : List Http.Request} {status : Nat} {e : Http.ExchangeError} :
    g.Meets network endpoint method u sent (.ok ⟨status, .error e⟩) → Succeeds status →
    e ≠ .timedOut →
    Ends g network endpoint method sent (.error ⟨g.hop endpoint, .request e.message⟩)
  | halted {u : Url} {sent : List Http.Request} {status : Nat} :
    g.Meets network endpoint method u sent (.ok ⟨status, .error .timedOut⟩) → Succeeds status →
    Ends g network endpoint method sent (.error ⟨g.hop endpoint, .timeout g.limit⟩)
  | blank {u : Url} {sent : List Http.Request} {status : Nat} {text : String} :
    g.Meets network endpoint method u sent (.ok ⟨status, .ok text⟩) → Succeeds status →
    ¬ Relay.Filled text → Ends g network endpoint method sent (.error ⟨endpoint, .empty⟩)
  | fault {u : Url} {sent : List Http.Request} {status : Nat} {text : String} :
    g.Meets network endpoint method u sent (.ok ⟨status, .ok text⟩) → Succeeds status →
    Relay.Filled text → "<fault>".toList <:+: text.toList →
    Ends g network endpoint method sent (.error ⟨endpoint, .fault⟩)
  | answered {u : Url} {sent : List Http.Request} {status : Nat} {text : String} :
    g.Meets network endpoint method u sent (.ok ⟨status, .ok text⟩) → Succeeds status →
    Relay.Filled text → ¬ "<fault>".toList <:+: text.toList →
    Ends g network endpoint method sent (.ok text)

/-- The host that the call is addressed to is to blame for the exchange, and the endpoint for what
the answer says. -/
def Blames (g : Gateway) (endpoint : String) (e : CallError) : Prop :=
  match e.cause with
  | .request _ | .status _ | .timeout _ => e.endpoint = g.hop endpoint
  | .empty | .fault => e.endpoint = endpoint

variable {g : Gateway} {network : Http.Network} {endpoint method : String} {u : Url}
  {sent : List Http.Request} {met : Except Http.ExchangeError Http.Answer} {ended : CallResult}

/-! ## The exchange -/

theorem call_posts (g : Gateway) (network : Http.Network) (endpoint method : String) :
    ∃ contentType body, (∀ u, g.asking endpoint method u =
        Http.posting g.userAgent u contentType body) ∧
      g.call network endpoint method =
        ((Http.post network g.userAgent (g.hop endpoint) contentType body).1,
        result (g.hop endpoint) endpoint g.limit
          (Http.post network g.userAgent (g.hop endpoint) contentType body).2) := by
  unfold asking hop
  cases hrelay : g.relayUrl with
  | none => exact ⟨_, _, fun _ => rfl, Relay.call_direct hrelay network endpoint method⟩
  | some relay => exact ⟨_, _, fun _ => rfl, Relay.call_relayed hrelay network endpoint method⟩

theorem call_nowhere {e : Http.ExchangeError} (h : Http.address (g.hop endpoint) = .error e) :
    g.call network endpoint method = ([], .error ⟨g.hop endpoint, .request e.message⟩) := by
  obtain ⟨contentType, body, -, hcall⟩ := call_posts g network endpoint method
  rw [hcall, Http.post_nowhere h]
  rcases Http.address_error h with rfl | ⟨place, rfl⟩ <;> rfl

theorem call_place (h : Http.address (g.hop endpoint) = .ok u) (network : Http.Network)
    (method : String) : g.call network endpoint method =
      ((Http.run network [] (g.asking endpoint method u) Http.redirectLimit).1,
      result (g.hop endpoint) endpoint g.limit
        (Http.run network [] (g.asking endpoint method u) Http.redirectLimit).2) := by
  obtain ⟨contentType, body, hasking, hcall⟩ := call_posts g network endpoint method
  rw [hcall, Http.post_place h, hasking]

theorem Meets.call_eq (h : g.Meets network endpoint method u sent met) :
    g.call network endpoint method = (sent, result (g.hop endpoint) endpoint g.limit met) := by
  rw [call_place h.place, h.comes.run_eq]

/-! ## What is made of an answer -/

theorem isSuccess_iff (status : Nat) (text : Except Http.ExchangeError String) :
    (Http.Answer.mk status text).isSuccess = true ↔ Succeeds status := by
  simp only [Http.Answer.isSuccess, Succeeds, Bool.and_eq_true, decide_eq_true_eq]
  omega

theorem errorOf_request {e : Http.ExchangeError} (h : e ≠ .timedOut) (asked : String)
    (limit : Duration) : errorOf asked limit e = ⟨asked, .request e.message⟩ := by
  cases e with
  | timedOut => exact absurd rfl h
  | _ => rfl

theorem result_refused {status : Nat} (h : ¬ Succeeds status) (asked endpoint : String)
    (limit : Duration) (text : Except Http.ExchangeError String) :
    result asked endpoint limit (.ok ⟨status, text⟩) = .error ⟨asked, .status status⟩ := by
  have hstatus : (Http.Answer.mk status text).isSuccess = false := by
    rwa [← Bool.not_eq_true, isSuccess_iff]
  simp [result, hstatus]

theorem result_broken {status : Nat} (h : Succeeds status) (asked endpoint : String)
    (limit : Duration) (e : Http.ExchangeError) :
    result asked endpoint limit (.ok ⟨status, .error e⟩) = .error (errorOf asked limit e) := by
  simp [result, (isSuccess_iff status (.error e)).mpr h]

theorem result_whole {status : Nat} (h : Succeeds status) (asked endpoint : String)
    (limit : Duration) (text : String) :
    result asked endpoint limit (.ok ⟨status, .ok text⟩) =
      if Text.isBlankText text then .error ⟨endpoint, .empty⟩
      else if Rpc.isFault text then .error ⟨endpoint, .fault⟩ else .ok text := by
  simp [result, (isSuccess_iff status (.ok text)).mpr h]

theorem isBlankText_filled {text : String} (h : Relay.Filled text) :
    ¬ Text.isBlankText text = true := by
  rw [Relay.isBlankText_iff]
  exact not_not_intro h

theorem isFault_iff (text : String) :
    Rpc.isFault text = true ↔ "<fault>".toList <:+: text.toList := Text.hasMarker_iff

/-! ## Every call has one of these ends -/

theorem Ends.call_eq (h : g.Ends network endpoint method sent ended) :
    g.call network endpoint method = (sent, ended) := by
  cases h with
  | nowhere hplace => exact call_nowhere hplace
  | failed hmeets hcause =>
    rw [hmeets.call_eq, result, errorOf_request hcause]
  | late hmeets => exact hmeets.call_eq
  | refused hmeets hrefused => rw [hmeets.call_eq, result_refused hrefused]
  | cut hmeets hsuccess hcause =>
    rw [hmeets.call_eq, result_broken hsuccess, errorOf_request hcause]
  | halted hmeets hsuccess =>
    rw [hmeets.call_eq, result_broken hsuccess]
    rfl
  | blank hmeets hsuccess hblank =>
    rw [hmeets.call_eq, result_whole hsuccess, if_pos ((Relay.isBlankText_iff _).mpr hblank)]
  | fault hmeets hsuccess hfilled hfault =>
    rw [hmeets.call_eq, result_whole hsuccess, if_neg (isBlankText_filled hfilled),
      if_pos ((isFault_iff _).mpr hfault)]
  | answered hmeets hsuccess hfilled hfault =>
    rw [hmeets.call_eq, result_whole hsuccess, if_neg (isBlankText_filled hfilled),
      if_neg (mt (isFault_iff _).mp hfault)]

theorem Meets.ends (h : g.Meets network endpoint method u sent met) :
    ∃ ended, g.Ends network endpoint method sent ended := by
  cases met with
  | error e =>
    by_cases hlate : e = .timedOut
    · subst hlate
      exact ⟨_, .late h⟩
    · exact ⟨_, .failed h hlate⟩
  | ok a =>
    obtain ⟨status, text⟩ := a
    by_cases hsuccess : Succeeds status
    swap
    · exact ⟨_, .refused h hsuccess⟩
    cases text with
    | error e =>
      by_cases hlate : e = .timedOut
      · subst hlate
        exact ⟨_, .halted h hsuccess⟩
      · exact ⟨_, .cut h hsuccess hlate⟩
    | ok text =>
      by_cases hfilled : Relay.Filled text
      swap
      · exact ⟨_, .blank h hsuccess hfilled⟩
      by_cases hfault : "<fault>".toList <:+: text.toList
      · exact ⟨_, .fault h hsuccess hfilled hfault⟩
      · exact ⟨_, .answered h hsuccess hfilled hfault⟩

theorem exists_ends (g : Gateway) (network : Http.Network) (endpoint method : String) :
    ∃ sent ended, g.Ends network endpoint method sent ended := by
  cases hplace : Http.address (g.hop endpoint) with
  | error e => exact ⟨_, _, .nowhere hplace⟩
  | ok u =>
    have hcomes := Http.comes_run network (g.asking endpoint method u)
    obtain ⟨ended, hends⟩ := Meets.ends ⟨hplace, hcomes⟩
    exact ⟨_, ended, hends⟩

theorem ends_iff : g.Ends network endpoint method sent ended ↔
    g.call network endpoint method = (sent, ended) := by
  constructor
  · exact Ends.call_eq
  · intro h
    obtain ⟨sent', ended', hends⟩ := exists_ends g network endpoint method
    obtain ⟨rfl, rfl⟩ := Prod.mk.inj (hends.call_eq.symm.trans h)
    exact hends

/-! ## What all ends have in common -/

theorem ends_call (g : Gateway) (network : Http.Network) (endpoint method : String) :
    g.Ends network endpoint method (g.call network endpoint method).1
      (g.call network endpoint method).2 := ends_iff.mpr rfl

theorem Ends.blames {e : CallError} (h : g.Ends network endpoint method sent (.error e)) :
    g.Blames endpoint e := by
  cases h <;> rfl

/-- What holds of the requests of a call. -/
structure Sends (g : Gateway) (network : Http.Network) (endpoint method : String)
    (sent : List Http.Request) : Prop where
  nowhere : ∀ e, Http.address (g.hop endpoint) = .error e → sent = []
  traces : ∀ u, Http.address (g.hop endpoint) = .ok u →
    Http.Traces network (g.asking endpoint method u) sent
  few : sent.length ≤ Http.redirectLimit + 1

theorem call_sends (g : Gateway) (network : Http.Network) (endpoint method : String) :
    g.Sends network endpoint method (g.call network endpoint method).1 := by
  cases hplace : Http.address (g.hop endpoint) with
  | error e =>
    rw [call_nowhere hplace]
    exact ⟨fun _ _ => rfl, fun u hu => (by cases hplace.symm.trans hu), Nat.zero_le _⟩
  | ok u =>
    have htraces := (Http.comes_run network (g.asking endpoint method u)).traces
    rw [call_place hplace]
    refine ⟨fun e he => (by cases hplace.symm.trans he), fun u' hu' => ?_, htraces.few⟩
    obtain rfl := Except.ok.inj (hplace.symm.trans hu')
    exact htraces

/-- The whole final answer to a call, and a text that the call comes to. -/
structure Answered (g : Gateway) (network : Http.Network) (endpoint method : String) (u : Url)
    (before : List Http.Request) (e : Http.Errand) (r : Http.Response) (text : String) :
    Prop where
  place : Http.address (g.hop endpoint) = .ok u
  leads : Http.Leads network (g.asking endpoint method u) before e
  answer : network before e.request = .answers r
  success : 200 ≤ r.status ∧ r.status ≤ 299
  body : text = Http.bodyText r.body
  filled : ∃ c ∈ text.toList, Text.isBlank c = false
  faultless : ¬ "<fault>".toList <:+: text.toList

theorem Ends.answered_of_ok {text : String} (h : g.Ends network endpoint method sent (.ok text)) :
    ∃ u before e r, g.Answered network endpoint method u before e r text := by
  cases h with
  | answered hmeets hsuccess hfilled hfault =>
    obtain ⟨hplace, hcomes⟩ := hmeets
    cases hcomes with
    | answered hleads hanswer _ =>
      exact ⟨_, _, _, _, hplace, hleads, hanswer, hsuccess, rfl, hfilled, hfault⟩

theorem Answered.ends {text : String} {before : List Http.Request} {e : Http.Errand}
    {r : Http.Response} (h : g.Answered network endpoint method u before e r text) :
    g.Ends network endpoint method (before ++ [e.request]) (.ok text) := by
  obtain ⟨hplace, hleads, hanswer, hsuccess, rfl, hfilled, hfault⟩ := h
  have hstill := Http.success_still (r := r) ⟨hsuccess.1, by omega⟩ e.place
  exact .answered ⟨hplace, .answered hleads hanswer hstill⟩ hsuccess hfilled hfault

theorem call_ok_iff (text : String) : (g.call network endpoint method).2 = .ok text ↔
    ∃ u before e r, g.Answered network endpoint method u before e r text := by
  constructor
  · intro hok
    have hends := ends_call g network endpoint method
    rw [hok] at hends
    exact hends.answered_of_ok
  · rintro ⟨u, before, e, r, h⟩
    rw [h.ends.call_eq]

/-- What holds of a call, its requests and its result. -/
structure Concludes (g : Gateway) (network : Http.Network) (endpoint method : String)
    (sent : List Http.Request) (ended : CallResult) : Prop where
  sends : g.Sends network endpoint method sent
  ok : ∀ text, ended = .ok text ↔
    ∃ u before e r, g.Answered network endpoint method u before e r text
  unchanged : Http.LossyUtf8 Http.bodyText
  ends : ∀ sent' ended', g.Ends network endpoint method sent' ended' ↔ sent' = sent ∧ ended' = ended
  blames : ∀ e, ended = .error e → g.Blames endpoint e

/-- A call ends in exactly one way, whatever the network does. -/
theorem call_concludes (g : Gateway) (network : Http.Network) (endpoint method : String) :
    g.Concludes network endpoint method (g.call network endpoint method).1
      (g.call network endpoint method).2 where
  sends := g.call_sends network endpoint method
  ok := call_ok_iff
  unchanged := Http.bodyText_lossy
  ends sent' ended' := by
    rw [ends_iff, Prod.ext_iff]
    exact and_congr eq_comm eq_comm
  blames e hfailed := by
    have hends := ends_call g network endpoint method
    rw [hfailed] at hends
    exact hends.blames

theorem elsewhere_answered :
    Relay.straight.call Http.elsewhere "http://localhost:8111/" "m" =
      ([⟨"POST", "http://localhost:8111/", some "text/xml", some Relay.straight.userAgent,
          Rpc.document "m"⟩,
        ⟨"GET", "http://localhost:8111/other", none, some Relay.straight.userAgent, ""⟩],
        .ok "<x/>") ∧
    ∃ u before e r,
      Relay.straight.Answered Http.elsewhere "http://localhost:8111/" "m" u before e r "<x/>" := by
  have hcall : Relay.straight.call Http.elsewhere "http://localhost:8111/" "m" =
      ([⟨"POST", "http://localhost:8111/", some "text/xml", some Relay.straight.userAgent,
          Rpc.document "m"⟩,
        ⟨"GET", "http://localhost:8111/other", none, some Relay.straight.userAgent, ""⟩],
        .ok "<x/>") := by decide +kernel
  have hconcludes := call_concludes Relay.straight Http.elsewhere "http://localhost:8111/" "m"
  exact ⟨hcall, (hconcludes.ok "<x/>").mp (by rw [hcall])⟩

/-- Eleven requests are made of a host that redirects for ever, and it is not its status that is
reported. -/
theorem circular_fails :
    (Relay.straight.call Http.circular "http://localhost:8111/" "m").1.length = 11 ∧
    (Relay.straight.call Http.circular "http://localhost:8111/" "m").2 =
      .error ⟨"http://localhost:8111/",
        .request "error following redirect for url (http://localhost:8111/)"⟩ := by
  decide +kernel

/-- An error status counts before a body that is cut short and before the fault in it. -/
example : (Relay.viaSocket.call
    (Http.Peer.truncates ⟨500, none, none, Text.utf8Bytes "<fault>".toList⟩)
    "http://localhost:8111/" "m").2 =
    .error ⟨"http://127.0.0.1:8112/xmlrpc-socket", .status 500⟩ := by
  decide +kernel

end PoolWatch.Gateway
