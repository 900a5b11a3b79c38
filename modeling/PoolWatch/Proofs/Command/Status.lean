import PoolWatch.Command.Run
import PoolWatch.Proofs.Call.Outcome
import PoolWatch.Proofs.Poll.Outcome
import PoolWatch.Proofs.Relay.View

/-!
# One refresh from the command line

The command that asks once prints what a poller shows after its first cycle, and succeeds exactly if
that is a table. Without settings or a client nothing is sent and nothing is printed.
-/

namespace PoolWatch

/-! ## What is shown for a call -/

/-- The part from the first opening brace to the last closing one is read as a pool. -/
def Carries (text : String) (pool : Pool) : Prop :=
  ∃ payload : String, Envelope.Cut text.toList payload.toList ∧ Pool.decode payload = .ok pool

/-- What a poller shows after its first cycle if the call comes to a result in time. -/
def FirstShows (m : MonitorSettings) (result : CallResult) (model : DisplayModel) : Prop :=
  ∀ clock now delay, delay ≤ m.requestTimeoutMs.toNat →
    ((Poller.new m).step clock now (.cycle (.after delay result) none)).1.result = .shown model

theorem ofResult_eq_ok {result : CallResult} {pool : Pool} :
    Refresh.ofResult result = .ok pool ↔ ∃ text, result = .ok text ∧ Carries text pool := by
  constructor
  · intro h
    cases result with
    | error e => cases h
    | ok text =>
      refine ⟨text, rfl, ?_⟩
      change Refresh.ofText text = _ at h
      cases hpayload : Envelope.payload? text with
      | none =>
        rw [Refresh.ofText_bare hpayload] at h
        cases h
      | some payload =>
        refine ⟨payload, (Envelope.payload?_eq_some _ _).mp hpayload, ?_⟩
        cases hpool : Pool.decode payload with
        | error e =>
          rw [Refresh.ofText_undecodable hpayload hpool] at h
          cases h
        | ok found =>
          rw [Refresh.ofText_decoded hpayload hpool] at h
          exact congrArg Except.ok (Except.ok.inj h)
  · rintro ⟨text, rfl, payload, hcut, hpool⟩
    exact Refresh.ofText_decoded ((Envelope.payload?_eq_some _ _).mpr hcut) hpool

theorem firstShows_model (m : MonitorSettings) (result : CallResult) :
    FirstShows m result (Refresh.ofResult result).model := by
  intro clock now delay hdelay
  rw [Poller.cycle_shown]
  exact congrArg Poller.Result.shown (if_pos hdelay)

/-! ## The client -/

/-- A name that a client can give itself. -/
def Nameable (agent : String) : Prop :=
  ∀ c ∈ agent.toList, c = '\t' ∨ (0x20 ≤ c.toNat ∧ c.toNat ≠ 0x7f)

/-- The client that settings ask for. It goes through a relay if an address is given for one. -/
structure Built (s : Settings) (g : Gateway) : Prop where
  nameable : Nameable s.gateway.userAgent
  relay : ∀ url, g.relayUrl = some url ↔ s.gateway.relayUrl = some url ∧ url ≠ ""
  userAgent : g.userAgent = s.gateway.userAgent
  limit : g.limit = s.monitor.requestTimeout

theorem isAgent_iff (agent : String) : Gateway.isAgent agent = true ↔ Nameable agent := by
  simp [Gateway.isAgent, Nameable]

theorem ofSettings_ok {s : Settings} (h : Nameable s.gateway.userAgent) :
    ∃ g, Gateway.ofSettings s = .ok g ∧ Built s g := by
  unfold Gateway.ofSettings
  rw [if_pos ((isAgent_iff _).mpr h)]
  refine ⟨_, rfl, h, fun url => ?_, rfl, rfl⟩
  dsimp only
  split
  next hempty => simp [hempty, eq_comm]
  next hnone => simp [hnone]
  next given hgiven hsome =>
    rw [hsome]
    constructor
    · rintro ⟨⟩
      exact ⟨rfl, hgiven⟩
    · exact fun hboth => hboth.1

theorem ofSettings_error {s : Settings} (h : ¬ Nameable s.gateway.userAgent) :
    Gateway.ofSettings s = .error ⟨"", .request "builder error"⟩ := by
  unfold Gateway.ofSettings
  rw [if_neg (mt (isAgent_iff _).mp h)]
  rfl

/-! ## How the command ends -/

/-- The call that settings ask for. -/
def Surroundings.ask (w : Surroundings) (s : Settings) (g : Gateway) :
    List Http.Request × CallResult :=
  g.call w.network s.monitor.endpoint s.monitor.method

/-- The command has asked once and printed what came of it. -/
structure Asked (w : Surroundings) (s : Settings) (g : Gateway) (model : DisplayModel)
    (out : Outcome) : Prop where
  sent : out.sent = (w.ask s g).1
  /-- There is one request, and others only where the client is sent on. -/
  sends : g.Sends w.network s.monitor.endpoint s.monitor.method out.sent
  ends : g.Ends w.network s.monitor.endpoint s.monitor.method out.sent (w.ask s g).2
  cycle : FirstShows s.monitor (w.ask s g).2 model
  printed : out.printed = Plain.model w.color model
  success : out.failure = none ↔ ∃ t, model = .table t
  table : ∀ t, model = .table t ↔
    ∃ text pool, (w.ask s g).2 = .ok text ∧ Carries text pool ∧ t = pool.render
  files : out.files = w.files

/-- All ways in which the command can end. -/
inductive StatusEnd (w : Surroundings) (folder : String) : Outcome → Prop
  | unloaded {e : SettingsError} : Settings.load w.files w.environment folder = .error e →
    StatusEnd w folder ⟨w.files, "", [], some (.settings e)⟩
  | unbuilt {s : Settings} : Settings.load w.files w.environment folder = .ok s →
    ¬ Nameable s.gateway.userAgent →
    StatusEnd w folder ⟨w.files, "", [], some (.call ⟨"", .request "builder error"⟩)⟩
  | asked {s : Settings} {g : Gateway} {model : DisplayModel} {out : Outcome} :
    Settings.load w.files w.environment folder = .ok s → Built s g →
    Asked w s g model out → StatusEnd w folder out

variable {w : Surroundings} {s : Settings} {g : Gateway}

theorem pollOnce_ok (h : Gateway.ofSettings s = .ok g) {pool : Pool}
    (hpool : Refresh.ofResult (w.ask s g).2 = .ok pool) :
    w.pollOnce s = ⟨w.files, Plain.model w.color (.table pool.render), (w.ask s g).1, none⟩ := by
  unfold Surroundings.ask at hpool
  simp only [Surroundings.pollOnce, h, hpool, Refresh.model, Surroundings.ask]

theorem pollOnce_error (h : Gateway.ofSettings s = .ok g) {e : RefreshError}
    (he : Refresh.ofResult (w.ask s g).2 = .error e) :
    w.pollOnce s = ⟨w.files, Plain.model w.color .failed, (w.ask s g).1, some .refresh⟩ := by
  unfold Surroundings.ask at he
  simp only [Surroundings.pollOnce, h, he, Refresh.model, Surroundings.ask]

theorem ask_table (w : Surroundings) (s : Settings) (g : Gateway) (t : Table) :
    (Refresh.ofResult (w.ask s g).2).model = .table t ↔
      ∃ text pool, (w.ask s g).2 = .ok text ∧ Carries text pool ∧ t = pool.render := by
  rw [Refresh.model_eq_table]
  constructor
  · rintro ⟨pool, hpool, rfl⟩
    obtain ⟨text, htext, hcarries⟩ := ofResult_eq_ok.mp hpool
    exact ⟨text, pool, htext, hcarries, rfl⟩
  · rintro ⟨text, pool, htext, hcarries, rfl⟩
    exact ⟨pool, ofResult_eq_ok.mpr ⟨text, htext, hcarries⟩, rfl⟩

theorem pollOnce_asked (w : Surroundings) (h : Gateway.ofSettings s = .ok g) :
    Asked w s g (Refresh.ofResult (w.ask s g).2).model (w.pollOnce s) := by
  have hsends : g.Sends w.network s.monitor.endpoint s.monitor.method (w.ask s g).1 :=
    g.call_sends _ _ _
  have hends : g.Ends w.network s.monitor.endpoint s.monitor.method (w.ask s g).1 (w.ask s g).2 :=
    g.ends_call _ _ _
  have hcycle := firstShows_model s.monitor (w.ask s g).2
  have htable := ask_table w s g
  cases hresult : Refresh.ofResult (w.ask s g).2 with
  | ok pool =>
    rw [hresult] at hcycle htable
    rw [pollOnce_ok h hresult]
    exact ⟨rfl, hsends, hends, hcycle, rfl, iff_of_true rfl ⟨_, rfl⟩, htable, rfl⟩
  | error e =>
    rw [hresult] at hcycle htable
    rw [pollOnce_error h hresult]
    have hfailed : some CommandError.refresh = none ↔
        ∃ t, Refresh.model (.error e) = .table t := by simp [Refresh.model, DisplayModel.failed]
    exact ⟨rfl, hsends, hends, hcycle, rfl, hfailed, htable, rfl⟩

/-- Whatever the files say and whatever the peer does, the command comes to one of these ends. -/
theorem status_ends (w : Surroundings) (config : Option String) (asked : List Relay.Incoming) :
    ∃ out, w.run ⟨some .status, config⟩ asked = (out, []) ∧
      StatusEnd w (Invocation.folder ⟨some .status, config⟩ w.environment) out := by
  obtain ⟨folder, hfolder⟩ :
      ∃ folder, Invocation.folder ⟨some .status, config⟩ w.environment = folder := ⟨_, rfl⟩
  simp only [Surroundings.run, Invocation.effective, Option.getD_some, hfolder]
  cases hload : Settings.load w.files w.environment folder with
  | error e => exact ⟨_, rfl, .unloaded hload⟩
  | ok s =>
    refine ⟨_, rfl, ?_⟩
    by_cases hname : Nameable s.gateway.userAgent
    · obtain ⟨g, hclient, hbuilt⟩ := ofSettings_ok hname
      exact .asked hload hbuilt (pollOnce_asked w hclient)
    · have hend : w.pollOnce s = w.fails (.call ⟨"", .request "builder error"⟩) := by
        simp only [Surroundings.pollOnce, ofSettings_error hname]
      rw [hend]
      exact .unbuilt hload hname

/-! ## Two networks -/

/-- No files and no variables. -/
def bare (network : Http.Network) : Surroundings where
  files := ⟨[]⟩
  environment := []
  network := network
  color := false
  clock _ := ⟨0, 0⟩

/-- The endpoint tells of no resources. -/
def vacant : Http.Network :=
  Http.Peer.answers ⟨200, none, none, Text.utf8Bytes "<string>\x7b\"resources\":[]\x7d".toList⟩

theorem bare_status (network : Http.Network) :
    (bare network).run ⟨some .status, none⟩ [] =
      ((bare network).pollOnce Settings.default, []) := by
  have hload : Settings.load (bare network).files (bare network).environment "config" =
      .ok Settings.default := rfl
  have hfolder : Invocation.folder ⟨some .status, none⟩ (bare network).environment = "config" := rfl
  simp only [Surroundings.run, Invocation.effective, Option.getD_some, hfolder, hload]

theorem vacant_shown : ∃ out, (bare vacant).run ⟨some .status, none⟩ [] = (out, []) ∧
    out.failure.isNone ∧ out.printed = Plain.model false (.table ⟨[]⟩) ∧ out.sent.length = 1 ∧
    StatusEnd (bare vacant) "config" out := by
  obtain ⟨out, hrun, hend⟩ := status_ends (bare vacant) none []
  refine ⟨out, hrun, ?_⟩
  rw [bare_status] at hrun
  obtain ⟨rfl, -⟩ := Prod.mk.inj hrun
  have hfailure : ((bare vacant).pollOnce Settings.default).failure.isNone := by decide +kernel
  have hprinted : ((bare vacant).pollOnce Settings.default).printed =
      Plain.model false (.table ⟨[]⟩) := by decide +kernel
  have hsent : ((bare vacant).pollOnce Settings.default).sent.length = 1 := by decide +kernel
  exact ⟨hfailure, hprinted, hsent, hend⟩

/-- The command makes eleven requests of an endpoint that redirects for ever. -/
theorem circular_status :
    ((bare Http.circular).run ⟨some .status, none⟩ []).1.sent.length = 11 := by
  rw [bare_status]
  decide +kernel

end PoolWatch
