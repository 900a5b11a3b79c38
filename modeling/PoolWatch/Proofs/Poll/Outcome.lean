import PoolWatch.Poll.Poller
import PoolWatch.Proofs.Envelope

/-!
# What a call comes to

Asking for the pool has three stages: the call, the payload inside its text, and the pool inside the
payload. The first stage that fails decides.
-/

namespace PoolWatch

/-- What a caller has who asked as the settings say, by the first stage that failed. -/
inductive Reply.Yields (m : MonitorSettings) : Reply → Refresh → Prop
  /-- The other side reports a failure in time. -/
  | failed {delay : Nat} {e : CallError} : delay ≤ m.requestTimeoutMs.toNat →
    Yields m (.after delay (.error e)) (.error (.transport e))
  | late {delay : Nat} {result : CallResult} : m.requestTimeoutMs.toNat < delay →
    Yields m (.after delay result) (.error (.transport ⟨m.endpoint, .timeout m.requestTimeout⟩))
  | silent : Yields m .never (.error (.transport ⟨m.endpoint, .timeout m.requestTimeout⟩))
  | bare {delay : Nat} {text : String} : delay ≤ m.requestTimeoutMs.toNat →
    ¬ Envelope.Braced text.toList → Yields m (.after delay (.ok text)) (.error .envelope)
  | undecodable {delay : Nat} {text payload : String} {e : DecodeError} :
    delay ≤ m.requestTimeoutMs.toNat → Envelope.Cut text.toList payload.toList →
    Pool.decode payload = .error e → Yields m (.after delay (.ok text)) (.error (.decode e))
  | decoded {delay : Nat} {text payload : String} {pool : Pool} :
    delay ≤ m.requestTimeoutMs.toNat → Envelope.Cut text.toList payload.toList →
    Pool.decode payload = .ok pool → Yields m (.after delay (.ok text)) (.ok pool)

namespace Refresh

variable {text payload : String}

theorem ofText_bare (h : Envelope.payload? text = none) : ofText text = .error .envelope := by
  simp only [ofText, h]

theorem ofText_undecodable (h : Envelope.payload? text = some payload) {e : DecodeError}
    (hpool : Pool.decode payload = .error e) : ofText text = .error (.decode e) := by
  simp only [ofText, h, hpool]

theorem ofText_decoded (h : Envelope.payload? text = some payload) {pool : Pool}
    (hpool : Pool.decode payload = .ok pool) : ofText text = .ok pool := by
  simp only [ofText, h, hpool]

end Refresh

namespace Reply

variable {m : MonitorSettings}

theorem result_in_time {delay : Nat} (h : delay ≤ m.requestTimeoutMs.toNat) (r : CallResult) :
    (after delay r).result m = r := if_pos h

theorem result_late {delay : Nat} (h : m.requestTimeoutMs.toNat < delay) (r : CallResult) :
    (after delay r).result m = .error ⟨m.endpoint, .timeout m.requestTimeout⟩ :=
  if_neg (Nat.not_le_of_lt h)

theorem duration_le (timeout : Nat) (reply : Reply) : reply.duration timeout ≤ timeout := by
  cases reply with
  | after delay r => exact Nat.min_le_right _ _
  | never => exact Nat.le_refl _

theorem yields_refresh (m : MonitorSettings) (reply : Reply) :
    reply.Yields m (reply.refresh m) := by
  cases reply with
  | never => exact .silent
  | after delay r =>
    rw [refresh]
    rcases Nat.lt_or_ge m.requestTimeoutMs.toNat delay with hlate | hdelay
    · rw [result_late hlate]
      exact .late hlate
    · rw [result_in_time hdelay]
      cases r with
      | error e => exact .failed hdelay
      | ok text =>
        rw [Refresh.ofResult]
        cases hpayload : Envelope.payload? text with
        | none =>
          rw [Refresh.ofText_bare hpayload]
          exact .bare hdelay ((Envelope.payload?_eq_none text).mp hpayload)
        | some payload =>
          have hcut := (Envelope.payload?_eq_some text payload).mp hpayload
          cases hpool : Pool.decode payload with
          | error e =>
            rw [Refresh.ofText_undecodable hpayload hpool]
            exact .undecodable hdelay hcut hpool
          | ok pool =>
            rw [Refresh.ofText_decoded hpayload hpool]
            exact .decoded hdelay hcut hpool

theorem Yields.eq_refresh {reply : Reply} {r : Refresh} (h : reply.Yields m r) :
    r = reply.refresh m := by
  cases h with
  | silent => rfl
  | late hlate => rw [refresh, result_late hlate, Refresh.ofResult]
  | failed hdelay => rw [refresh, result_in_time hdelay, Refresh.ofResult]
  | bare hdelay hbare =>
    have hpayload := (Envelope.payload?_eq_none _).mpr hbare
    rw [refresh, result_in_time hdelay, Refresh.ofResult, Refresh.ofText_bare hpayload]
  | undecodable hdelay hcut hpool =>
    have hpayload := (Envelope.payload?_eq_some _ _).mpr hcut
    rw [refresh, result_in_time hdelay, Refresh.ofResult, Refresh.ofText_undecodable hpayload hpool]
  | decoded hdelay hcut hpool =>
    have hpayload := (Envelope.payload?_eq_some _ _).mpr hcut
    rw [refresh, result_in_time hdelay, Refresh.ofResult, Refresh.ofText_decoded hpayload hpool]

theorem yields_iff {reply : Reply} {r : Refresh} : reply.Yields m r ↔ r = reply.refresh m :=
  ⟨Yields.eq_refresh, fun h => h ▸ yields_refresh m reply⟩

end Reply

/-! ## What is shown for it -/

theorem Refresh.model_eq_table (r : Refresh) (t : Table) :
    r.model = .table t ↔ ∃ pool, r = .ok pool ∧ t = pool.render := by
  cases r with
  | error e => simp [model, DisplayModel.failed]
  | ok pool =>
    constructor
    · intro h
      exact ⟨pool, rfl, (DisplayModel.table.inj h).symm⟩
    · rintro ⟨same, hsame, rfl⟩
      rw [Except.ok.inj hsame, model]

theorem Refresh.model_eq_failed (r : Refresh) :
    r.model = .failed ↔ ¬ ∃ pool, r = .ok pool := by
  cases r with
  | error e => simp [model]
  | ok pool => simp [model, DisplayModel.failed]

namespace Poller

/-- A poller in any state gets what the reply yields, and that in time. A cycle with the same reply
always ends with a model, which is the table of the pool or the one error view. -/
theorem step_outcome (clock : Nat → Timestamp) (now : Nat) (p : Poller) (reply : Reply) :
    ∃ r took model, (∀ other, reply.Yields p.settings other ↔ other = r) ∧
      took ≤ p.settings.requestTimeoutMs.toNat ∧
      p.step clock now (.fetch reply) = (⟨.fetched r, took, [p.call now]⟩, p) ∧
      (p.step clock now (.cycle reply none)).1 = ⟨.shown model, took, [p.begin.call now]⟩ ∧
      (∀ t, model = .table t ↔ ∃ pool, r = .ok pool ∧ t = pool.render) ∧
      (model = .failed ↔ ¬ ∃ pool, r = .ok pool) :=
  ⟨reply.refresh p.settings, reply.duration p.settings.requestTimeoutMs.toNat,
    (reply.refresh p.settings).model, fun _ => Reply.yields_iff, Reply.duration_le _ _, rfl, rfl,
    Refresh.model_eq_table _, Refresh.model_eq_failed _⟩

end Poller

end PoolWatch
