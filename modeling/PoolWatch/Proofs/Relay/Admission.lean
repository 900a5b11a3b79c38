import PoolWatch.Proofs.Form
import PoolWatch.Proofs.Http.Exchange
import PoolWatch.Relay.Handle

/-!
# Which requests the relay passes on

A request is admitted by several gates, and all of them must be open. An admitted request leads to
one request of the relay's own, and to more only where the server sends the relay on. Any other
leads to none and is the client's fault.
-/

namespace PoolWatch.Relay

/-! ## The gates -/

/-- All values of a field, in the order of the form. -/
def values (name : String) (fields : List (String × String)) : List String :=
  (fields.filter (·.1 = name)).map (·.2)

/-- Some character is no white space. -/
def Filled (text : String) : Prop := ∃ c ∈ text.toList, Text.isBlank c = false

/-- A form that is posted on the route and is not too long. -/
structure Reaches (s : RelaySettings) (route : Route) (r : Incoming) : Prop where
  post : r.method = "POST"
  onRoute : route.accepts (pathOf r.target) = true
  form : isForm r.contentType = true
  short : r.body.length ≤ s.maxBodyBytes.toNat
  shortForm : r.body.length ≤ formLimit

/-- The form names one server and one text, and neither is blank. -/
structure Admitted (s : RelaySettings) (route : Route) (r : Incoming) (server text : String) : Prop
    extends Reaches s route r where
  oneServer : values "rpcserver" (Form.decode r.body) = [server]
  oneText : values "rpctext" (Form.decode r.body) = [text]
  serverFilled : Filled server
  textFilled : Filled text

/-! ## What comes of a request -/

/-- What the relay has to ask for an admitted request. -/
structure Asks (server text : String) (e : Http.Errand) : Prop where
  address : Http.address server = .ok e.place
  errand : e = Http.posting "cloud-pool-monitor relay" e.place "text/xml" e.body
  request : e.request = ⟨"POST", (Http.onWire e.place).text, some "text/xml",
    some "cloud-pool-monitor relay", e.body⟩
  body : e.body.toList = text.toList.filter fun c => c != '\n' && c != '\r'

def failedText (server : String) (e : Http.ExchangeError) : String :=
  "Upstream " ++ server ++ " failed: " ++ e.message

def lateText (server : String) : String := "Upstream " ++ server ++ " did not answer in time"

/-- What is sent for an admitted request, and what the client is told, by what the server does. -/
inductive PassedOn (network : Http.Network) (server text : String) :
    List Http.Request → Outgoing → Prop
  | unusable {e : Http.ExchangeError} : Http.address server = .error e →
    PassedOn network server text [] (plain 502 (failedText server e))
  | failed {first : Http.Errand} {sent : List Http.Request} {e : Http.ExchangeError} :
    Asks server text first → Http.Comes network first sent (.error e) → e ≠ .timedOut →
    PassedOn network server text sent (plain 502 (failedText server e))
  | late {first : Http.Errand} {sent : List Http.Request} : Asks server text first →
    Http.Comes network first sent (.error .timedOut) →
    PassedOn network server text sent (plain 504 (lateText server))
  | answered {first : Http.Errand} {sent : List Http.Request} {status : Nat} {answer : String} :
    Asks server text first → Http.Comes network first sent (.ok ⟨status, .ok answer⟩) →
    PassedOn network server text sent ⟨200, some "text/xml", none, Rpc.fromDeclaration answer⟩
  | broken {first : Http.Errand} {sent : List Http.Request} {status : Nat}
    {e : Http.ExchangeError} : Asks server text first →
    Http.Comes network first sent (.ok ⟨status, .error e⟩) → e ≠ .timedOut →
    PassedOn network server text sent (plain 502 (failedText server e))
  | halted {first : Http.Errand} {sent : List Http.Request} {status : Nat} :
    Asks server text first → Http.Comes network first sent (.ok ⟨status, .error .timedOut⟩) →
    PassedOn network server text sent (plain 504 (lateText server))

/-- What a client is told whose request is not admitted. A blank field is as good as none. -/
structure Refused (s : RelaySettings) (route : Route) (r : Incoming) (out : Outgoing) : Prop where
  clientError : 400 ≤ out.status ∧ out.status < 500
  noServer : Reaches s route r → (values "rpcserver" (Form.decode r.body)).length ≤ 1 →
    (values "rpctext" (Form.decode r.body)).length ≤ 1 →
    (∀ server ∈ values "rpcserver" (Form.decode r.body), ¬ Filled server) →
    out = plain 400 "No rpcserver specified."
  noText : Reaches s route r → (values "rpctext" (Form.decode r.body)).length ≤ 1 →
    ∀ server, values "rpcserver" (Form.decode r.body) = [server] → Filled server →
    out = plain 400 "No rpctext specified."

/-! ## Reading the fields -/

theorem values_cons_self (name value : String) (fields : List (String × String)) :
    values name ((name, value) :: fields) = value :: values name fields := by
  simp [values]

theorem values_cons_ne {name other : String} (h : other ≠ name) (value : String)
    (fields : List (String × String)) :
    values name ((other, value) :: fields) = values name fields := by
  simp [values, h]

/-- What reading a form gives whose fields have these values. -/
def ReadsAs (servers texts : List String) : Except String Order → Prop
  | .ok o => servers.length ≤ 1 ∧ texts.length ≤ 1 ∧ o = ⟨servers.head?, texts.head?⟩
  | .error name =>
    name = "rpcserver" ∧ 1 < servers.length ∨ name = "rpctext" ∧ 1 < texts.length

-- What was taken before stands in front of what is still to come.
theorem readOrder_reads (o : Order) (fields : List (String × String)) :
    ReadsAs (o.server.toList ++ values "rpcserver" fields)
      (o.text.toList ++ values "rpctext" fields) (readOrder o fields) := by
  induction fields generalizing o with
  | nil =>
    obtain ⟨server, text⟩ := o
    cases server <;> cases text <;> simp [readOrder, ReadsAs, values]
  | cons field fields ih =>
    obtain ⟨name, value⟩ := field
    obtain ⟨server, text⟩ := o
    unfold readOrder
    by_cases hserver : name = "rpcserver"
    · subst hserver
      rw [values_cons_self, values_cons_ne (by decide), if_pos rfl]
      cases server with
      | some server => exact .inl ⟨rfl, by simp⟩
      | none => exact ih ⟨some value, text⟩
    rw [values_cons_ne hserver, if_neg hserver]
    by_cases htext : name = "rpctext"
    · subst htext
      rw [values_cons_self, if_pos rfl]
      cases text with
      | some text => exact .inr ⟨rfl, by simp⟩
      | none => exact ih ⟨server, some value⟩
    · rw [values_cons_ne htext, if_neg htext]
      exact ih ⟨server, text⟩

theorem eq_singleton {all : List String} (h : all.length ≤ 1) {one : String} (hone : one ∈ all) :
    all = [one] := by
  match all, h with
  | [other], _ => rw [List.mem_singleton.mp hone]

/-! ## Blank fields -/

theorem isBlankText_iff (text : String) : Text.isBlankText text = true ↔ ¬ Filled text := by
  simp [Text.isBlankText, Filled]

theorem filled_some {text : String} (h : Filled text) : filled (some text) = some text := by
  have hblank : Text.isBlankText text = false := by
    rw [← Bool.not_eq_true, isBlankText_iff]
    exact not_not_intro h
  simp [filled, hblank]

theorem filled_blank {field : Option String} (h : ∀ text ∈ field, ¬ Filled text) :
    filled field = none := by
  cases field with
  | none => rfl
  | some text =>
    have hblank := (isBlankText_iff text).mpr (h text rfl)
    simp [filled, hblank]

theorem order?_ok {server text : String} (hserver : Filled server) (htext : Filled text) :
    order? ⟨some server, some text⟩ = .ok (server, text) := by
  unfold order?
  rw [filled_some hserver, filled_some htext]

theorem order?_noServer {o : Order} (h : ∀ server ∈ o.server, ¬ Filled server) :
    order? o = .error .missingServer := by
  unfold order?
  rw [filled_blank h]

theorem order?_noText {server : String} (hserver : Filled server) {field : Option String}
    (h : ∀ text ∈ field, ¬ Filled text) : order? ⟨some server, field⟩ = .error .missingText := by
  unfold order?
  rw [filled_some hserver, filled_blank h]

/-! ## Passing on -/

theorem agent_trimmed : Text.trim agent = agent := by decide

theorem asks_posting {server : String} {u : Url} (h : Http.address server = .ok u)
    (text : String) : Asks server text (Http.posting agent u Gateway.xmlType (oneLine text)) where
  address := h
  errand := rfl
  request := by
    rw [Http.Errand.request, Http.posting, agent_trimmed]
    rfl
  body := by simp [Http.posting, oneLine]

theorem Asks.posting {server text : String} {e : Http.Errand} (h : Asks server text e) :
    e = Http.posting agent e.place Gateway.xmlType (oneLine text) := by
  have hbody : e.body = oneLine text := by
    rw [← String.toList_inj, h.body, oneLine, String.toList_ofList]
  rw [h.errand, hbody]
  rfl

theorem answer_unusable {server : String} {e : Http.ExchangeError}
    (h : Http.address server = .error e) :
    answer server (.error e) = plain 502 (failedText server e) := by
  rcases Http.address_error h with rfl | ⟨place, rfl⟩ <;> rfl

theorem ofExchange_failed {e : Http.ExchangeError} (h : e ≠ .timedOut) (server : String) :
    ofError (.ofExchange server e) = plain 502 (failedText server e) := by
  cases e with
  | timedOut => exact absurd rfl h
  | _ => rfl

theorem forward_passedOn (network : Http.Network) (server text : String) :
    PassedOn network server text (forward network server text).1
      (forward network server text).2 := by
  unfold forward
  cases hplace : Http.address server with
  | error e =>
    simp only [Http.post_nowhere hplace, answer_unusable hplace]
    exact .unusable hplace
  | ok u =>
    have hasks := asks_posting hplace text
    have hcomes := Http.comes_run network (Http.posting agent u Gateway.xmlType (oneLine text))
    simp only [Http.post_place hplace]
    generalize Http.run network [] _ _ = done at hcomes ⊢
    obtain ⟨sent, result⟩ := done
    cases result with
    | error e =>
      by_cases hlate : e = .timedOut
      · subst hlate
        exact .late hasks hcomes
      · rw [answer, ofExchange_failed hlate]
        exact .failed hasks hcomes hlate
    | ok a =>
      obtain ⟨status, found⟩ := a
      cases found with
      | ok found => exact .answered hasks hcomes
      | error e =>
        by_cases hlate : e = .timedOut
        · subst hlate
          exact .halted hasks hcomes
        · dsimp only [answer]
          rw [ofExchange_failed hlate]
          exact .broken hasks hcomes hlate

theorem PassedOn.length_le {network : Http.Network} {server text : String}
    {sent : List Http.Request} {out : Outgoing} (h : PassedOn network server text sent out) :
    sent.length ≤ Http.redirectLimit + 1 := by
  cases h with
  | unusable => exact Nat.zero_le _
  | failed _ hcomes => exact hcomes.length_le
  | late _ hcomes => exact hcomes.length_le
  | answered _ hcomes => exact hcomes.length_le
  | broken _ hcomes => exact hcomes.length_le
  | halted _ hcomes => exact hcomes.length_le

theorem forward_traces (network : Http.Network) {server text : String} {first : Http.Errand}
    (h : Asks server text first) : Http.Traces network first (forward network server text).1 := by
  have hcomes := Http.comes_run network first
  rw [h.posting] at hcomes ⊢
  unfold forward
  simp only [Http.post_place h.address]
  exact hcomes.traces

/-! ## Refusing -/

section

variable {s : RelaySettings} {route : Route} {r : Incoming}

theorem Refused.outside (h : ¬ Reaches s route r) {out : Outgoing}
    (hstatus : 400 ≤ out.status ∧ out.status < 500) : Refused s route r out where
  clientError := hstatus
  noServer := fun hreaches => absurd hreaches h
  noText := fun hreaches => absurd hreaches h

theorem Refused.repeated (h : 1 < (values "rpcserver" (Form.decode r.body)).length ∨
      1 < (values "rpctext" (Form.decode r.body)).length) {out : Outgoing}
    (hstatus : 400 ≤ out.status ∧ out.status < 500) : Refused s route r out where
  clientError := hstatus
  noServer := by
    intro _ hservers htexts
    omega
  noText := by
    intro _ htexts server hserver
    rw [hserver, List.length_singleton] at h
    omega

theorem Refused.withoutServer
    (h : ∀ server ∈ values "rpcserver" (Form.decode r.body), ¬ Filled server) :
    Refused s route r (plain 400 "No rpcserver specified.") where
  clientError := by decide
  noServer := fun _ _ _ _ => rfl
  noText := by
    intro _ _ server hserver hfilled
    exact absurd hfilled (h server (by simp [hserver]))

theorem Refused.withoutText {server : String}
    (hserver : server ∈ values "rpcserver" (Form.decode r.body)) (hfilled : Filled server) :
    Refused s route r (plain 400 "No rpctext specified.") where
  clientError := by decide
  noServer := fun _ _ _ h => absurd hfilled (h server hserver)
  noText := fun _ _ _ _ _ => rfl

theorem handle_outside (h : ¬ Reaches s route r) (network : Http.Network) :
    (handle s route network r).1 = [] ∧ Refused s route r (handle s route network r).2 := by
  have hdispatch : (dispatch s route network r).1 = [] ∧
      400 ≤ (dispatch s route network r).2.status ∧
      (dispatch s route network r).2.status < 500 := by
    unfold dispatch accept
    dsimp only
    split
    · exact ⟨rfl, (by decide : 400 ≤ 413 ∧ 413 < 500)⟩
    split
    · exact ⟨rfl, (by decide : 400 ≤ 404 ∧ 404 < 500)⟩
    split
    · exact ⟨rfl, (by decide : 400 ≤ 405 ∧ 405 < 500)⟩
    split
    · exact ⟨rfl, (by decide : 400 ≤ 415 ∧ 415 < 500)⟩
    split
    · exact ⟨rfl, (by decide : 400 ≤ 413 ∧ 413 < 500)⟩
    next hroute hpost hform hshort =>
    exact absurd ⟨by simpa using hpost, by simpa using hroute, by simpa using hform, by omega,
      by omega⟩ h
  obtain ⟨hsent, hstatus⟩ := hdispatch
  unfold handle
  refine ⟨hsent, Refused.outside h ?_⟩
  dsimp only
  split <;> exact hstatus

theorem handle_inside (h : Reaches s route r) (network : Http.Network) :
    handle s route network r = accept s network r := by
  obtain ⟨hpost, hroute, -, hshort, -⟩ := h
  unfold handle dispatch
  dsimp only
  rw [if_neg (by simp; omega), if_neg (by simp [hroute]), if_neg (by simp [hpost]),
    if_neg (by simp [hpost])]

theorem accept_repeated (h : Reaches s route r) {name : String}
    (hread : readOrder ⟨none, none⟩ (Form.decode r.body) = .error name) (network : Http.Network) :
    (accept s network r).1 = [] ∧ (accept s network r).2.status = 422 := by
  obtain ⟨-, -, hform, hshort, hshortForm⟩ := h
  unfold accept
  rw [if_neg (by simp [hform]), if_neg (by omega), hread]
  exact ⟨rfl, rfl⟩

theorem accept_refused (h : Reaches s route r) {o : Order} {e : RelayError}
    (hread : readOrder ⟨none, none⟩ (Form.decode r.body) = .ok o) (horder : order? o = .error e)
    (network : Http.Network) : accept s network r = ([], ofError e) := by
  obtain ⟨-, -, hform, hshort, hshortForm⟩ := h
  unfold accept
  rw [if_neg (by simp [hform]), if_neg (by omega), hread]
  simp only [horder]

theorem accept_passed (h : Reaches s route r) {o : Order} {server text : String}
    (hread : readOrder ⟨none, none⟩ (Form.decode r.body) = .ok o)
    (horder : order? o = .ok (server, text)) (network : Http.Network) :
    accept s network r = forward network server text := by
  obtain ⟨-, -, hform, hshort, hshortForm⟩ := h
  unfold accept
  rw [if_neg (by simp [hform]), if_neg (by omega), hread]
  simp only [horder]

theorem Admitted.handle_eq {server text : String} (h : Admitted s route r server text)
    (network : Http.Network) : handle s route network r = forward network server text := by
  obtain ⟨hreaches, hserver, htext, hserverFilled, htextFilled⟩ := h
  have hread := readOrder_reads ⟨none, none⟩ (Form.decode r.body)
  simp only [Option.toList_none, List.nil_append, hserver, htext] at hread
  rw [handle_inside hreaches]
  cases horder : readOrder ⟨none, none⟩ (Form.decode r.body) with
  | error name =>
    rw [horder] at hread
    simp [ReadsAs] at hread
  | ok o =>
    rw [horder] at hread
    obtain ⟨-, -, rfl⟩ := hread
    exact accept_passed hreaches horder (order?_ok hserverFilled htextFilled) network

/-- Behind the gates the fields decide. A server that is missing is told before a text is. -/
theorem handle_refused (h : Reaches s route r)
    (hnot : ¬ ∃ server text, Admitted s route r server text) (network : Http.Network) :
    (handle s route network r).1 = [] ∧ Refused s route r (handle s route network r).2 := by
  have hread := readOrder_reads ⟨none, none⟩ (Form.decode r.body)
  simp only [Option.toList_none, List.nil_append] at hread
  rw [handle_inside h]
  cases horder : readOrder ⟨none, none⟩ (Form.decode r.body) with
  | error name =>
    rw [horder] at hread
    obtain ⟨hsent, hstatus⟩ := accept_repeated h horder network
    refine ⟨hsent, Refused.repeated ?_ (by omega)⟩
    exact hread.imp And.right And.right
  | ok o =>
    rw [horder] at hread
    obtain ⟨hservers, htexts, rfl⟩ := hread
    by_cases hserver : ∃ server ∈ values "rpcserver" (Form.decode r.body), Filled server
    · obtain ⟨server, hmem, hfilled⟩ := hserver
      have hone := eq_singleton hservers hmem
      by_cases htext : ∃ text ∈ values "rpctext" (Form.decode r.body), Filled text
      · obtain ⟨text, hmem', hfilled'⟩ := htext
        exact absurd ⟨server, text, h, hone, eq_singleton htexts hmem', hfilled, hfilled'⟩ hnot
      · have hnone := order?_noText hfilled fun text hhead hfilled' =>
          htext ⟨text, List.mem_of_mem_head? hhead, hfilled'⟩
        rw [hone, List.head?_cons] at horder
        rw [accept_refused h horder hnone]
        exact ⟨rfl, Refused.withoutText hmem hfilled⟩
    · have hblank : ∀ server ∈ values "rpcserver" (Form.decode r.body), ¬ Filled server :=
        fun server hmem hfilled => hserver ⟨server, hmem, hfilled⟩
      rw [accept_refused h horder (order?_noServer fun server hhead =>
        hblank server (List.mem_of_mem_head? hhead))]
      exact ⟨rfl, Refused.withoutServer hblank⟩

theorem handle_unadmitted (h : ¬ ∃ server text, Admitted s route r server text)
    (network : Http.Network) :
    (handle s route network r).1 = [] ∧ Refused s route r (handle s route network r).2 := by
  by_cases hreaches : Reaches s route r
  · exact handle_refused hreaches h network
  · exact handle_outside hreaches network

/-- Whatever is asked and whatever a server does: either the request is admitted and passed on, or
nothing is sent and the client is to blame. A server that does not send the relay on is asked once.
The form is read as it was written, and the answer as UTF-8 with replacements. -/
theorem admission (s : RelaySettings) (route : Route) (network : Http.Network) (r : Incoming) :
    (handle s route network r).1.length ≤ Http.redirectLimit + 1 ∧
    ((∃ server text, Admitted s route r server text ∧
        PassedOn network server text (handle s route network r).1 (handle s route network r).2 ∧
        ∀ first, Asks server text first →
          Http.Traces network first (handle s route network r).1) ∨
      ((¬ ∃ server text, Admitted s route r server text) ∧ (handle s route network r).1 = [] ∧
        Refused s route r (handle s route network r).2)) ∧
    (∀ fields, Form.decode (Text.utf8Bytes (Form.encode fields).toList) = fields) ∧
    Http.LossyUtf8 Http.bodyText := by
  refine ⟨?_, ?_, Form.decode_encode, Http.bodyText_lossy⟩
  · by_cases hadmitted : ∃ server text, Admitted s route r server text
    · obtain ⟨server, text, h⟩ := hadmitted
      rw [h.handle_eq]
      exact (forward_passedOn network server text).length_le
    · rw [(handle_unadmitted hadmitted network).1]
      exact Nat.zero_le _
  · by_cases hadmitted : ∃ server text, Admitted s route r server text
    · obtain ⟨server, text, h⟩ := hadmitted
      rw [h.handle_eq]
      exact .inl ⟨server, text, h, forward_passedOn network server text,
        fun _ => forward_traces network⟩
    · exact .inr ⟨hadmitted, handle_unadmitted hadmitted network⟩

end

/-! ## An order for a server at hand -/

def socketRoute : Route := (Route.ofPath? Settings.default.relay.path).getD []

def localOrder : Incoming :=
  ⟨"POST", "/xmlrpc-socket", some "application/x-www-form-urlencoded",
    Text.utf8Bytes "rpcserver=http%3A%2F%2Flocalhost%3A8111%2F&rpctext=x%0Ay".toList, true⟩

theorem localOrder_admitted :
    Admitted Settings.default.relay socketRoute localOrder "http://localhost:8111/" "x\ny" where
  post := rfl
  onRoute := by decide +kernel
  form := by decide +kernel
  short := by decide +kernel
  shortForm := by decide +kernel
  oneServer := by decide +kernel
  oneText := by decide +kernel
  serverFilled := ⟨'h', by decide, by decide⟩
  textFilled := ⟨'x', by decide, by decide⟩

/-- A server that answers with noise in front of the declaration. -/
def talkative : Http.Network :=
  Http.Peer.answers ⟨200, none, none, Text.utf8Bytes "noise<?xml?>".toList⟩

theorem localOrder_answered :
    handle Settings.default.relay socketRoute talkative localOrder =
      ([⟨"POST", "http://localhost:8111/", some "text/xml", some "cloud-pool-monitor relay", "xy"⟩],
        ⟨200, some "text/xml", none, "<?xml?>"⟩) ∧
    ∃ server text, Admitted Settings.default.relay socketRoute localOrder server text ∧
      PassedOn talkative server text
        (handle Settings.default.relay socketRoute talkative localOrder).1
        (handle Settings.default.relay socketRoute talkative localOrder).2 := by
  refine ⟨by decide +kernel, ?_⟩
  obtain ⟨-, ⟨server, text, hadmitted, hpassed, -⟩ | ⟨hnot, -⟩, -⟩ :=
    admission Settings.default.relay socketRoute talkative localOrder
  · exact ⟨server, text, hadmitted, hpassed⟩
  · exact absurd ⟨_, _, localOrder_admitted⟩ hnot

theorem localOrder_circles :
    Admitted Settings.default.relay socketRoute localOrder "http://localhost:8111/" "x\ny" ∧
    (handle Settings.default.relay socketRoute Http.circular localOrder).1.length = 11 ∧
    (handle Settings.default.relay socketRoute Http.circular localOrder).2 =
      plain 502 ("Upstream http://localhost:8111/ failed: " ++
        "error following redirect for url (http://localhost:8111/)") :=
  ⟨localOrder_admitted, by decide +kernel, by decide +kernel⟩

end PoolWatch.Relay
