import Mathlib.Data.List.TakeWhile
import PoolWatch.Http.Exchange
import PoolWatch.Proofs.Text.Utf8

/-!
# Requests and places

An exchange begins with a post to the place that its address names. Every further request follows an
answer that sends the client on. The first answer that does not is the one that counts. A text
without a colon names no place, and nobody is asked for it.
-/

namespace PoolWatch

/-! ## Addresses -/

namespace Url

theorem mem_of_mem_cleaned {c : Char} {cs : List Char} (h : c ∈ cleaned cs) : c ∈ cs := by
  have hinner := List.mem_reverse.mp (List.mem_filter.mp h).1
  have houter := (List.dropWhile_sublist _).mem hinner
  exact (List.dropWhile_sublist _).mem (List.mem_reverse.mp houter)

theorem parse?_noColon {s : String} (h : ':' ∉ s.toList) : parse? s = none := by
  have hcleaned : (cleaned s.toList).dropWhile (fun c => !(c == ':')) = [] := by
    apply List.dropWhile_eq_nil_iff.mpr
    intro c hc
    have hne : c ≠ ':' := fun heq => h (heq ▸ mem_of_mem_cleaned hc)
    simpa using hne
  unfold parse? cutScheme? Text.cut
  rw [hcleaned]

end Url

namespace Http

variable {url : String}

theorem address_noColon (h : ':' ∉ url.toList) : address url = .error .unusable := by
  unfold address
  rw [Url.parse?_noColon h]

theorem address_error {e : ExchangeError} (h : address url = .error e) :
    e = .unusable ∨ ∃ place, e = .badAddress place := by
  unfold address at h
  split at h
  · exact .inl (Except.error.inj h).symm
  dsimp only at h
  split at h
  · cases h
  · exact .inr ⟨_, (Except.error.inj h).symm⟩

/-! ## Bodies -/

/-- How bytes are read as a text that need not be one. -/
structure LossyUtf8 (read : List UInt8 → String) : Prop where
  whole : ∀ text : String, read (Text.utf8Bytes text.toList) = text
  front : ∀ (text : String) bytes,
    read (Text.utf8Bytes text.toList ++ bytes) = text ++ read bytes
  /-- A byte that no character begins with becomes the replacement character. -/
  stray : ∀ (b : UInt8) bytes, 0x80 ≤ b ∧ b < 0xc2 ∨ 0xf5 ≤ b →
    read (b :: bytes) = "\ufffd" ++ read bytes

theorem bodyText_utf8Bytes (text : String) : bodyText (Text.utf8Bytes text.toList) = text := by
  rw [bodyText, Text.decodeUtf8_utf8Bytes, String.ofList_toList]

theorem bodyText_lossy : LossyUtf8 bodyText where
  whole := bodyText_utf8Bytes
  front text bytes := by
    rw [bodyText, Text.decodeUtf8_append, String.ofList_append, String.ofList_toList, bodyText]
  stray b bytes h := by
    rw [bodyText, Text.decodeUtf8_stray h, String.ofList_cons]
    rfl

/-! ## One request -/

variable {network : Network} {before sent : List Request} {first e next : Errand}
  {result : Except ExchangeError Answer}

theorem run_still (h : e.onward? (network before e.request) = none) (left : Nat) :
    run network before e left =
      (before ++ (if (network before e.request).receives then [e.request] else []),
      meet e.place.text (network before e.request)) := by
  unfold run
  dsimp only
  rw [h]

theorem run_tooFar (h : e.onward? (network before e.request) = some next) :
    run network before e 0 = (before ++ [e.request], .error (.tooFar e.place.text)) := by
  unfold run
  dsimp only
  rw [h]

theorem run_on (h : e.onward? (network before e.request) = some next)
    (hweb : isWeb next.place = true) (left : Nat) :
    run network before e (left + 1) = run network (before ++ [e.request]) next left := by
  conv =>
    lhs
    unfold run
  dsimp only
  rw [h]
  exact if_pos hweb

theorem run_elsewhere (h : e.onward? (network before e.request) = some next)
    (hweb : isWeb next.place = false) (left : Nat) : run network before e (left + 1) =
      (before ++ [e.request], .error (.badAddress next.place.text)) := by
  unfold run
  dsimp only
  rw [h]
  exact if_neg (by simp [hweb])

theorem onward?_head {peer : Peer} {r : Response} (hhead : peer.head? = some r)
    (h : r.onward? e.place = none) : e.onward? peer = none := by
  simp [Errand.onward?, hhead, h]

theorem success_still {r : Response} (h : 200 ≤ r.status ∧ r.status < 300) (u : Url) :
    r.onward? u = none := by
  have hnot : (repeating.contains r.status || looking.contains r.status) = false := by
    simp [repeating, looking]
    omega
  rw [Response.onward?, hnot]
  rfl

/-! ## Being sent on -/

/-- The ways that the network sends an errand: what has been asked before, and what is to be asked
now. -/
inductive Leads (network : Network) (first : Errand) : List Request → Errand → Prop
  | start : Leads network first [] first
  | on {before : List Request} {e next : Errand} : Leads network first before e →
    before.length < redirectLimit → e.onward? (network before e.request) = some next →
    isWeb next.place = true → Leads network first (before ++ [e.request]) next

theorem Leads.length_le (h : Leads network first before e) : before.length ≤ redirectLimit := by
  cases h with
  | start => exact Nat.zero_le _
  | on _ hlength => simpa using Nat.succ_le_of_lt hlength

theorem Leads.nil (h : Leads network first [] e) : e = first := by
  generalize hbefore : ([] : List Request) = before at h
  cases h with
  | start => rfl
  | on => simp at hbefore

theorem Leads.run_eq (h : Leads network first before e) :
    run network [] first redirectLimit = run network before e (redirectLimit - before.length) := by
  induction h with
  | start => rfl
  | @on before e next _ hlength honward hweb ih =>
    have hleft : redirectLimit - before.length =
        redirectLimit - (before ++ [e.request]).length + 1 := by
      rw [List.length_append, List.length_singleton]
      omega
    rw [ih, hleft, run_on honward hweb]

/-- All that can come of an errand, with the requests that go out for it. -/
inductive Comes (network : Network) (first : Errand) :
    List Request → Except ExchangeError Answer → Prop
  | unreachable {before : List Request} {e : Errand} : Leads network first before e →
    network before e.request = .unreachable →
    Comes network first before (.error (.notSent e.place.text))
  | dropped {before : List Request} {e : Errand} : Leads network first before e →
    network before e.request = .drops →
    Comes network first (before ++ [e.request]) (.error (.notSent e.place.text))
  | stalled {before : List Request} {e : Errand} : Leads network first before e →
    network before e.request = .stalls →
    Comes network first (before ++ [e.request]) (.error .timedOut)
  | answered {before : List Request} {e : Errand} {r : Response} : Leads network first before e →
    network before e.request = .answers r → r.onward? e.place = none →
    Comes network first (before ++ [e.request]) (.ok ⟨r.status, .ok (bodyText r.body)⟩)
  | truncated {before : List Request} {e : Errand} {r : Response} : Leads network first before e →
    network before e.request = .truncates r → r.onward? e.place = none →
    Comes network first (before ++ [e.request]) (.ok ⟨r.status, .error .cutShort⟩)
  | halted {before : List Request} {e : Errand} {r : Response} : Leads network first before e →
    network before e.request = .halts r → r.onward? e.place = none →
    Comes network first (before ++ [e.request]) (.ok ⟨r.status, .error .timedOut⟩)
  | tooFar {before : List Request} {e next : Errand} : Leads network first before e →
    before.length = redirectLimit → e.onward? (network before e.request) = some next →
    Comes network first (before ++ [e.request]) (.error (.tooFar e.place.text))
  | elsewhere {before : List Request} {e next : Errand} : Leads network first before e →
    before.length < redirectLimit → e.onward? (network before e.request) = some next →
    isWeb next.place = false →
    Comes network first (before ++ [e.request]) (.error (.badAddress next.place.text))

theorem Leads.run_still (h : Leads network first before e) {peer : Peer}
    (hpeer : network before e.request = peer) (hstill : e.onward? peer = none) :
    run network [] first redirectLimit =
      (before ++ (if peer.receives then [e.request] else []), meet e.place.text peer) := by
  subst hpeer
  rw [h.run_eq, Http.run_still hstill]

theorem Comes.run_eq (h : Comes network first sent result) :
    run network [] first redirectLimit = (sent, result) := by
  cases h with
  | unreachable hleads hpeer =>
    rw [hleads.run_still hpeer rfl]
    simp [Peer.receives, meet]
  | dropped hleads hpeer => exact hleads.run_still hpeer rfl
  | stalled hleads hpeer => exact hleads.run_still hpeer rfl
  | answered hleads hpeer hstill => exact hleads.run_still hpeer (onward?_head rfl hstill)
  | truncated hleads hpeer hstill => exact hleads.run_still hpeer (onward?_head rfl hstill)
  | halted hleads hpeer hstill => exact hleads.run_still hpeer (onward?_head rfl hstill)
  | tooFar hleads hlength honward =>
    rw [hleads.run_eq, hlength, Nat.sub_self, run_tooFar honward]
  | elsewhere hleads hlength honward hweb =>
    obtain ⟨left, hleft⟩ := Nat.exists_eq_add_of_lt hlength
    rw [hleads.run_eq, show redirectLimit - _ = left + 1 by omega, run_elsewhere honward hweb]

theorem Leads.comes_still (h : Leads network first before e)
    (hstill : e.onward? (network before e.request) = none) :
    ∃ sent result, Comes network first sent result := by
  have hhead : ∀ {r}, (network before e.request).head? = some r → r.onward? e.place = none := by
    intro r hr
    simpa [Errand.onward?, hr] using hstill
  cases hpeer : network before e.request with
  | unreachable => exact ⟨_, _, .unreachable h hpeer⟩
  | drops => exact ⟨_, _, .dropped h hpeer⟩
  | stalls => exact ⟨_, _, .stalled h hpeer⟩
  | answers r => exact ⟨_, _, .answered h hpeer (hhead (by rw [hpeer]; rfl))⟩
  | truncates r => exact ⟨_, _, .truncated h hpeer (hhead (by rw [hpeer]; rfl))⟩
  | halts r => exact ⟨_, _, .halted h hpeer (hhead (by rw [hpeer]; rfl))⟩

-- The errand goes on as long as it is sent on, and how often it may be bounds how often it is.
theorem Leads.comes (h : Leads network first before e) :
    ∃ sent result, Comes network first sent result := by
  induction hleft : redirectLimit - before.length generalizing before e with
  | zero =>
    have hlength : before.length = redirectLimit := Nat.le_antisymm h.length_le (by omega)
    cases honward : e.onward? (network before e.request) with
    | none => exact h.comes_still honward
    | some next => exact ⟨_, _, .tooFar h hlength honward⟩
  | succ left ih =>
    have hlength : before.length < redirectLimit := by omega
    cases honward : e.onward? (network before e.request) with
    | none => exact h.comes_still honward
    | some next =>
      cases hweb : isWeb next.place with
      | false => exact ⟨_, _, .elsewhere h hlength honward hweb⟩
      | true =>
        refine ih (h.on hlength honward hweb) ?_
        rw [List.length_append, List.length_singleton]
        omega

theorem comes_iff : Comes network first sent result ↔
    run network [] first redirectLimit = (sent, result) := by
  constructor
  · exact Comes.run_eq
  · intro h
    have hstart : Leads network first [] first := .start
    obtain ⟨sent', result', hcomes⟩ := hstart.comes
    obtain ⟨rfl, rfl⟩ := Prod.mk.inj (hcomes.run_eq.symm.trans h)
    exact hcomes

theorem comes_run (network : Network) (first : Errand) :
    Comes network first (run network [] first redirectLimit).1
      (run network [] first redirectLimit).2 := comes_iff.mpr rfl

/-! ## What goes out -/

/-- The requests of an exchange end with one that its errand leads to, or just before. -/
theorem Comes.leads (h : Comes network first sent result) : ∃ before e,
    Leads network first before e ∧ (sent = before ∨ sent = before ++ [e.request]) := by
  cases h with
  | unreachable hleads => exact ⟨_, _, hleads, .inl rfl⟩
  | dropped hleads => exact ⟨_, _, hleads, .inr rfl⟩
  | stalled hleads => exact ⟨_, _, hleads, .inr rfl⟩
  | answered hleads => exact ⟨_, _, hleads, .inr rfl⟩
  | truncated hleads => exact ⟨_, _, hleads, .inr rfl⟩
  | halted hleads => exact ⟨_, _, hleads, .inr rfl⟩
  | tooFar hleads => exact ⟨_, _, hleads, .inr rfl⟩
  | elsewhere hleads => exact ⟨_, _, hleads, .inr rfl⟩

theorem Comes.length_le (h : Comes network first sent result) :
    sent.length ≤ redirectLimit + 1 := by
  obtain ⟨before, e, hleads, rfl | rfl⟩ := h.leads
  · exact Nat.le_succ_of_le hleads.length_le
  · simpa using hleads.length_le

theorem Leads.alone (h : Leads network first before e)
    (hstill : first.onward? (network [] first.request) = none) : before = [] := by
  induction h with
  | start => rfl
  | @on before e next hleads _ honward _ ih =>
    subst ih
    obtain rfl := hleads.nil
    cases hstill.symm.trans honward

theorem Comes.alone (h : Comes network first sent result)
    (hstill : first.onward? (network [] first.request) = none) : sent.length ≤ 1 := by
  obtain ⟨before, e, hleads, hsent⟩ := h.leads
  obtain rfl := hleads.alone hstill
  rcases hsent with rfl | rfl <;> simp

/-- The same errand at another place, or a look at it. -/
def Errand.Keeps (first e : Errand) : Prop :=
  e = { first with place := e.place } ∨ e = ⟨e.place, "GET", none, first.agent, ""⟩

theorem Errand.Keeps.sentOn (h : first.Keeps e) (status : Nat) (place : Url) :
    first.Keeps (e.sentOn status place) := by
  unfold Errand.sentOn
  split
  · rcases h with h | h
    · exact .inl (by rw [h])
    · exact .inr (by rw [h])
  · rcases h with h | h
    · exact .inr (by rw [h])
    · exact .inr (by rw [h])

theorem Leads.keeps (h : Leads network first before e) : first.Keeps e := by
  induction h with
  | start => exact .inl rfl
  | on _ _ honward _ ih =>
    obtain ⟨r, -, honward⟩ := Option.bind_eq_some_iff.mp honward
    obtain ⟨place, -, rfl⟩ := Option.map_eq_some_iff.mp honward
    exact ih.sentOn _ _

theorem Leads.mem (h : Leads network first before e) {q : Request} (hq : q ∈ before) :
    ∃ e, first.Keeps e ∧ q = e.request := by
  induction h with
  | start => cases hq
  | on hleads _ _ _ ih =>
    rcases List.mem_append.mp hq with hq | hq
    · exact ih hq
    · exact ⟨_, hleads.keeps, List.mem_singleton.mp hq⟩

theorem Comes.mem (h : Comes network first sent result) {q : Request} (hq : q ∈ sent) :
    ∃ e, first.Keeps e ∧ q = e.request := by
  obtain ⟨before, e, hleads, rfl | rfl⟩ := h.leads
  · exact hleads.mem hq
  · rcases List.mem_append.mp hq with hq | hq
    · exact hleads.mem hq
    · exact ⟨e, hleads.keeps, List.mem_singleton.mp hq⟩

theorem Leads.head (h : Leads network first before e) :
    (before ++ [e.request]).head? = some first.request := by
  induction h with
  | start => rfl
  | on _ _ _ _ ih => rw [List.head?_append, ih, Option.some_or]

theorem Comes.head (h : Comes network first sent result) {q : Request} (hq : q ∈ sent.head?) :
    q = first.request := by
  obtain ⟨before, e, hleads, rfl | rfl⟩ := h.leads
  · have hhead := hleads.head
    rw [List.head?_append, hq, Option.some_or] at hhead
    exact Option.some.inj hhead
  · exact Option.some.inj (hq.symm.trans hleads.head)

/-- What holds of the requests that go out for an errand. -/
structure Traces (network : Network) (first : Errand) (sent : List Request) : Prop where
  begins : ∀ q ∈ sent.head?, q = first.request
  keeps : ∀ q ∈ sent, ∃ e, first.Keeps e ∧ q = e.request
  few : sent.length ≤ redirectLimit + 1
  alone : first.onward? (network [] first.request) = none → sent.length ≤ 1

theorem Comes.traces (h : Comes network first sent result) : Traces network first sent where
  begins _ := h.head
  keeps _ := h.mem
  few := h.length_le
  alone := h.alone

/-! ## Posts -/

variable {agent contentType body : String} {u : Url}

theorem post_nowhere {e : ExchangeError} (h : address url = .error e) (network : Network)
    (agent contentType body : String) :
    post network agent url contentType body = ([], .error e) := by
  unfold post
  rw [h]

theorem post_place (h : address url = .ok u) (network : Network)
    (agent contentType body : String) :
    post network agent url contentType body =
      run network [] (posting agent u contentType body) redirectLimit := by
  unfold post
  rw [h]

theorem post_still (h : address url = .ok u) {peer : Peer}
    (hpeer : network [] (posting agent u contentType body).request = peer)
    (hstill : (posting agent u contentType body).onward? peer = none) :
    post network agent url contentType body =
      (if peer.receives then [(posting agent u contentType body).request] else [],
      meet u.text peer) := by
  rw [post_place h, Leads.start.run_still hpeer hstill, List.nil_append]
  rfl

theorem mem_post {q : Request} (h : q ∈ (post network agent url contentType body).1) :
    ∃ u e, address url = .ok u ∧ (posting agent u contentType body).Keeps e ∧
      q = e.request := by
  cases hplace : address url with
  | error e =>
    rw [post_nowhere hplace] at h
    cases h
  | ok u =>
    rw [post_place hplace] at h
    obtain ⟨e, hkeeps, hq⟩ := (comes_run _ _).mem h
    exact ⟨u, e, rfl, hkeeps, hq⟩

/-! ## Peers that treat all requests alike -/

/-- Errands that are sent on alike come to the same. -/
theorem run_map (peer : Peer) (f : Errand → Errand) (g : Request → Request)
    (hplace : ∀ e, (f e).place = e.place) (hrequest : ∀ e, g e.request = (f e).request)
    (hsentOn : ∀ e status place, (f e).sentOn status place = f (e.sentOn status place))
    (before : List Request) (e : Errand) (left : Nat) :
    run peer (before.map g) (f e) left =
      ((run peer before e left).1.map g, (run peer before e left).2) := by
  have honward : ∀ e, (f e).onward? peer = (e.onward? peer).map f := by
    intro e
    have hsent : ∀ status, (f e).sentOn status = f ∘ e.sentOn status :=
      fun status => funext (hsentOn e status)
    simp [Errand.onward?, hplace, hsent, Option.map_bind, Function.comp_def]
  have hnext : ∀ (before : List Request) e,
      before.map g ++ [(f e).request] = (before ++ [e.request]).map g := by
    simp [hrequest]
  induction left generalizing before e with
  | zero =>
    cases hnow : e.onward? peer with
    | none =>
      rw [run_still (by rw [honward, hnow]; rfl), run_still hnow, hplace]
      split <;> simp [hrequest]
    | some next => rw [run_tooFar (by rw [honward, hnow]; rfl), run_tooFar hnow, hplace, hnext]
  | succ left ih =>
    cases hnow : e.onward? peer with
    | none =>
      rw [run_still (by rw [honward, hnow]; rfl), run_still hnow, hplace]
      split <;> simp [hrequest]
    | some next =>
      have hthen : (f e).onward? peer = some (f next) := by rw [honward, hnow]; rfl
      cases hweb : isWeb next.place with
      | false =>
        rw [run_elsewhere hthen (by rw [hplace, hweb]), run_elsewhere hnow hweb, hplace, hnext]
      | true => rw [run_on hthen (by rw [hplace, hweb]), run_on hnow hweb, hnext, ih]

/-- A look at a place. -/
def glance (place : Url) : Errand := ⟨place, "GET", none, "", ""⟩

/-- What comes of any exchange with a peer that treats all requests alike. -/
def exchange (peer : Peer) (url : String) : Except ExchangeError Answer :=
  (address url).bind fun u => (run peer [] (glance u) redirectLimit).2

theorem post_exchange (peer : Peer) (agent url contentType body : String) :
    (post peer agent url contentType body).2 = exchange peer url := by
  cases hplace : address url with
  | error e => rw [post_nowhere hplace, exchange, hplace]; rfl
  | ok u =>
    have hrun := run_map peer (fun e => glance e.place)
      (fun q => ⟨"GET", q.url, none, some (Text.trim ""), ""⟩) (fun _ => rfl) (fun _ => rfl)
      (fun e status place => by
        unfold Errand.sentOn
        split <;> rfl) [] (posting agent u contentType body) redirectLimit
    rw [post_place hplace, exchange, hplace]
    exact (congrArg Prod.snd hrun).symm

theorem exchange_still {peer : Peer} (h : address url = .ok u)
    (hstill : (glance u).onward? peer = none) : exchange peer url = meet u.text peer := by
  have hstart : Leads peer (glance u) [] (glance u) := .start
  rw [exchange, h]
  exact congrArg Prod.snd (hstart.run_still rfl hstill)

theorem exchange_answer {peer : Peer} {a : Answer} (h : exchange peer url = .ok a) :
    meet url peer = .ok a := by
  cases hplace : address url with
  | error e =>
    rw [exchange, hplace] at h
    cases h
  | ok u =>
    have hrun : (run peer [] (glance u) redirectLimit).2 = .ok a := by
      rwa [exchange, hplace] at h
    obtain ⟨sent, hcomes⟩ : ∃ sent, Comes peer (glance u) sent (.ok a) :=
      ⟨_, hrun ▸ comes_run peer (glance u)⟩
    -- Wherever the answer comes from in the end, it is the one that the peer gives.
    cases hcomes with
    | answered _ hpeer => exact congrArg (meet url) hpeer
    | truncated _ hpeer => exact congrArg (meet url) hpeer
    | halted _ hpeer => exact congrArg (meet url) hpeer

/-! ## Two networks -/

/-- Everyone is sent back to where they are. -/
def circular : Network := Peer.answers ⟨307, none, some "/", []⟩

/-- Everyone is sent elsewhere at first, to look there. -/
def elsewhere : Network := fun before _ =>
  .answers (if before.isEmpty then ⟨302, none, some "/other", []⟩
    else ⟨200, none, none, Text.utf8Bytes "<x/>".toList⟩)

end Http

end PoolWatch
