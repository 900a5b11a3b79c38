import PoolWatch.Poll.Poller
import PoolWatch.Proofs.Board.Steps

/-!
# The history of a poller

A poller and its board keep one account of what has been done so far, whatever is done and in
whatever order. A cycle that is given up leaves the poller polling, and takes nothing else with it.
-/

namespace PoolWatch.Poller

/-! ## Steps, one at a time -/

namespace Step

variable (m : MonitorSettings)

def isCycle : Step → Bool
  | cycle _ _ => true
  | _ => false

/-- A cycle whose call takes longer than its limit. -/
def givenUp : Step → Bool
  | cycle reply (some limit) => limit < reply.duration m.requestTimeoutMs.toNat
  | _ => false

def took : Step → Nat
  | fetch reply => reply.duration m.requestTimeoutMs.toNat
  | cycle reply none => reply.duration m.requestTimeoutMs.toNat
  | cycle reply (some limit) => min limit (reply.duration m.requestTimeoutMs.toNat)
  | look => 0

/-- What a cycle puts up that is not given up. -/
def outcome? : Step → Option DisplayModel
  | cycle reply limit =>
    if givenUp m (cycle reply limit) then none else some (reply.refresh m).model
  | _ => none

/-- The remote call of a step, after so many cycles and with the frame that is there. -/
def call? (now cycles : Nat) (f : Frame) : Step → Option Call
  | fetch _ => some ⟨now, m.endpoint, m.method, f⟩
  | cycle _ _ => some ⟨now, m.endpoint, m.method, ⟨cycles + 1, .polling, f.model, f.publishedAt⟩⟩
  | look => none

variable {m} {reply : Reply} {limit : Option Nat}

theorem finishes_eq (m : MonitorSettings) (reply : Reply) (limit : Option Nat) :
    finishes (reply.duration m.requestTimeoutMs.toNat) limit = !(cycle reply limit).givenUp m := by
  cases limit with
  | none => rfl
  | some limit =>
    rw [finishes, givenUp, ← decide_not]
    exact decide_eq_decide.mpr Nat.not_lt.symm

theorem took_of_givenUp (h : (cycle reply limit).givenUp m = true) :
    (cycle reply limit).took m = limit.getD 0 := by
  cases limit with
  | none => cases h
  | some limit =>
    rw [givenUp, decide_eq_true_eq] at h
    exact Nat.min_eq_left (Nat.le_of_lt h)

theorem took_of_finishes (h : (cycle reply limit).givenUp m = false) :
    (cycle reply limit).took m = reply.duration m.requestTimeoutMs.toNat := by
  cases limit with
  | none => rfl
  | some limit =>
    rw [givenUp, decide_eq_false_iff_not] at h
    exact Nat.min_eq_right (Nat.le_of_not_lt h)

end Step

/-! ## Histories -/

/-- How long a history takes. -/
def spent (m : MonitorSettings) : List Step → Nat
  | [] => 0
  | s :: rest => s.took m + spent m rest

/-- What the finished cycles of a history have put up, with the times. -/
def outcomes (clock : Nat → Timestamp) (m : MonitorSettings) (start : Nat) :
    List Step → List (DisplayModel × Timestamp)
  | [] => []
  | s :: rest =>
    let finished := start + s.took m
    ((s.outcome? m).toList.map fun model => (model, clock finished)) ++
      outcomes clock m finished rest

/-- The model and its mark that the last finished cycle has left. -/
def lastShown (clock : Nat → Timestamp) (m : MonitorSettings) (start : Nat) (past : List Step) :
    DisplayModel × Option Timestamp :=
  match (outcomes clock m start past).getLast? with
  | none => (.pending, none)
  | some (model, time) => (model, some time)

/-- The last cycle of a history was given up. -/
def LeftPolling (m : MonitorSettings) (past : List Step) : Prop :=
  ∃ s, (past.filter Step.isCycle).getLast? = some s ∧ s.givenUp m = true

/-- How a poller stands after a history. -/
structure Account (clock : Nat → Timestamp) (m : MonitorSettings) (start : Nat)
    (past : List Step) (p : Poller) : Prop where
  settings : p.settings = m
  cycle : p.cycle = past.countP Step.isCycle
  frame_cycle : p.frame.cycle = p.cycle
  shown : (p.frame.model, p.frame.publishedAt) = lastShown clock m start past
  state : p.state = p.frame.state
  polling_iff : p.state = .polling ↔ LeftPolling m past
  published : p.board.published = true

variable {clock : Nat → Timestamp} {m : MonitorSettings} {start : Nat} {past : List Step}
  {p : Poller}

theorem spent_concat (m : MonitorSettings) (past : List Step) (s : Step) :
    spent m (past ++ [s]) = spent m past + s.took m := by
  induction past with
  | nil => simp only [List.nil_append, spent, Nat.add_comm]
  | cons t rest ih => rw [List.cons_append, spent, spent, ih, Nat.add_assoc]

theorem outcomes_concat (start : Nat) (past : List Step) (s : Step) :
    outcomes clock m start (past ++ [s]) = outcomes clock m start past ++
      (s.outcome? m).toList.map fun model => (model, clock (start + spent m (past ++ [s]))) := by
  induction past generalizing start with
  | nil => simp [outcomes, spent]
  | cons t rest ih =>
    rw [List.cons_append, outcomes, outcomes, ih, List.append_assoc]
    simp [spent, Nat.add_assoc]

theorem lastShown_none {s : Step} (h : s.outcome? m = none) :
    lastShown clock m start (past ++ [s]) = lastShown clock m start past := by
  simp [lastShown, outcomes_concat, h]

theorem lastShown_some {s : Step} {model : DisplayModel} (h : s.outcome? m = some model) :
    lastShown clock m start (past ++ [s]) =
      (model, some (clock (start + spent m (past ++ [s])))) := by
  simp [lastShown, outcomes_concat, h]

theorem countP_cycle (past : List Step) (reply : Reply) (limit : Option Nat) :
    (past ++ [Step.cycle reply limit]).countP Step.isCycle = past.countP Step.isCycle + 1 := by
  simp [Step.isCycle]

theorem leftPolling_cycle {s : Step} (h : s.isCycle = true) :
    LeftPolling m (past ++ [s]) ↔ s.givenUp m = true := by
  simp [LeftPolling, h]

theorem leftPolling_other {s : Step} (h : s.isCycle = false) :
    LeftPolling m (past ++ [s]) ↔ LeftPolling m past := by
  simp [LeftPolling, h]

theorem Account.new (clock : Nat → Timestamp) (m : MonitorSettings) (start : Nat) :
    Account clock m start [] (new m) where
  settings := rfl
  cycle := rfl
  frame_cycle := rfl
  shown := rfl
  state := rfl
  polling_iff := by simp [Poller.new, LeftPolling]
  published := rfl

/-- Readers disturb nothing that a poller keeps account of. -/
theorem Account.read (h : Account clock m start past p) {asked : List Board.Step}
    (hreads : ∀ s ∈ asked, s.replaces = false ∧ s.ends = false) :
    Account clock m start past { p with board := p.board.after asked } := by
  obtain ⟨hframe, hpublished⟩ := Board.after_of_reads hreads p.board
  exact
    { settings := h.settings
      cycle := h.cycle
      frame_cycle := (congrArg Frame.cycle hframe).trans h.frame_cycle
      shown := (congrArg (fun f => (f.model, f.publishedAt)) hframe).trans h.shown
      state := h.state.trans (congrArg Frame.state hframe).symm
      polling_iff := h.polling_iff
      published := hpublished.trans h.published }

/-! ## One step -/

/-- What a step does that begins at `now`. -/
structure Done (m : MonitorSettings) (now : Nat) (s : Step) (p : Poller) (report : Report)
    (q : Poller) : Prop where
  kept : s.isCycle = false → q = p
  elapsed : report.elapsed = s.took m
  calls : report.calls = (s.call? m now p.cycle p.frame).toList
  shown_iff : ∀ model, report.result = .shown model ↔ s.outcome? m = some model
  abandoned_iff : report.result = .abandoned ↔ s.givenUp m = true

theorem begin_frame (h : p.board.published = true) :
    p.begin.frame = p.frame.beginCycle (p.cycle + 1) := by
  simp [begin, update, frame, Board.step_frame, h, Board.Step.follow]

theorem begin_published : p.begin.board.published = p.board.published := by
  simp [begin, update, Board.step_published, Board.Step.ends]

theorem finish_frame (h : p.board.published = true) (model : DisplayModel) (time : Timestamp) :
    (p.finish model time).frame = p.frame.publish model time := by
  simp [finish, update, frame, Board.step_frame, h, Board.Step.follow]

theorem finish_published (model : DisplayModel) (time : Timestamp) :
    (p.finish model time).board.published = p.board.published := by
  simp [finish, update, Board.step_published, Board.Step.ends]

theorem Account.keep (h : Account clock m start past p) {s : Step} (hs : s.isCycle = false) :
    Account clock m start (past ++ [s]) p where
  settings := h.settings
  cycle := by rw [h.cycle]; simp [hs]
  frame_cycle := h.frame_cycle
  shown := by
    rw [h.shown, lastShown_none]
    cases s <;> first | rfl | cases hs
  state := h.state
  polling_iff := h.polling_iff.trans (leftPolling_other hs).symm
  published := h.published

theorem Account.abandon (h : Account clock m start past p) {reply : Reply} {limit : Option Nat}
    (hgiven : (Step.cycle reply limit).givenUp m = true) :
    Account clock m start (past ++ [.cycle reply limit]) p.begin := by
  have hframe := begin_frame h.published
  exact
    { settings := h.settings
      cycle := by rw [countP_cycle, ← h.cycle]; rfl
      frame_cycle := by rw [hframe]; rfl
      -- The model is still that of the cycle that finished last.
      shown := by
        rw [hframe, lastShown_none (by rw [Step.outcome?, hgiven]; rfl), ← h.shown]
        rfl
      state := by rw [hframe]; rfl
      polling_iff := by
        rw [leftPolling_cycle rfl, hgiven]
        exact ⟨fun _ => rfl, fun _ => rfl⟩
      published := begin_published.trans h.published }

theorem Account.complete (h : Account clock m start past p) {reply : Reply} {limit : Option Nat}
    (hgiven : (Step.cycle reply limit).givenUp m = false) :
    Account clock m start (past ++ [.cycle reply limit]) (p.begin.finish (reply.refresh m).model
      (clock (start + spent m (past ++ [.cycle reply limit])))) := by
  have hpublished : p.begin.board.published = true := begin_published.trans h.published
  have hframe := finish_frame hpublished (reply.refresh m).model
    (clock (start + spent m (past ++ [.cycle reply limit])))
  rw [begin_frame h.published] at hframe
  exact
    { settings := h.settings
      cycle := by rw [countP_cycle, ← h.cycle]; rfl
      frame_cycle := by rw [hframe]; rfl
      shown := by
        rw [hframe, lastShown_some (by rw [Step.outcome?, hgiven]; rfl)]
        rfl
      state := by rw [hframe]; rfl
      polling_iff := by
        rw [leftPolling_cycle rfl, hgiven]
        exact ⟨fun h => (nomatch h), fun h => (nomatch h)⟩
      published := (finish_published _ _).trans hpublished }

theorem step_account (h : Account clock m start past p) (s : Step) :
    Account clock m start (past ++ [s]) (p.step clock (start + spent m past) s).2 := by
  cases s with
  | fetch reply => exact h.keep rfl
  | look => exact h.keep rfl
  | cycle reply limit =>
    have hsettings : p.begin.settings = m := h.settings
    simp only [step, hsettings, Step.finishes_eq]
    cases hgiven : (Step.cycle reply limit).givenUp m with
    | true => exact h.abandon hgiven
    | false =>
      have hdone := h.complete hgiven
      rw [spent_concat, Step.took_of_finishes hgiven, ← Nat.add_assoc] at hdone
      exact hdone

theorem step_done (h : Account clock m start past p) (now : Nat) (s : Step) :
    Done m now s p (p.step clock now s).1 (p.step clock now s).2 := by
  obtain rfl := h.settings
  cases s with
  | fetch _ | look =>
    exact ⟨fun _ => rfl, rfl, rfl, by simp [step, Step.outcome?], by simp [step, Step.givenUp]⟩
  | cycle reply limit =>
    have hcall : p.begin.call now = ⟨now, p.settings.endpoint, p.settings.method,
        p.frame.beginCycle (p.cycle + 1)⟩ := by rw [call, begin_frame h.published]; rfl
    have hsettings : p.begin.settings = p.settings := rfl
    simp only [step, hsettings, Step.finishes_eq, hcall]
    cases hgiven : (Step.cycle reply limit).givenUp p.settings with
    | true =>
      exact ⟨fun h => (nomatch h), (Step.took_of_givenUp hgiven).symm, rfl,
        by simp [Step.outcome?, hgiven], by simp [hgiven]⟩
    | false =>
      exact ⟨fun h => (nomatch h), (Step.took_of_finishes hgiven).symm, rfl,
        by simp [Step.outcome?, hgiven], by simp [hgiven]⟩

/-! ## All steps -/

theorem steps_reach (h : Account clock m start past p) (between : List Step) (s : Step)
    (rest : List Step) :
    ∃ q, (p :: (steps clock (start + spent m past) p (between ++ s :: rest)).map (·.2))[
          between.length]? = some q ∧
      (steps clock (start + spent m past) p (between ++ s :: rest))[between.length]? =
        some (q.step clock (start + spent m (past ++ between)) s) ∧
      Account clock m start (past ++ between) q := by
  induction between generalizing past p with
  | nil =>
    rw [List.append_nil]
    exact ⟨p, rfl, rfl, h⟩
  | cons t between ih =>
    have hnow : start + spent m past + (p.step clock (start + spent m past) t).1.elapsed =
        start + spent m (past ++ [t]) := by
      rw [(step_done h _ t).elapsed, spent_concat, Nat.add_assoc]
    -- The first step is taken out of the history to come and put behind the one that has been.
    obtain ⟨q, hq, hstep, hqs⟩ := ih (step_account h t)
    rw [List.append_cons past t between]
    refine ⟨q, ?_, ?_, hqs⟩
    · rw [List.cons_append, steps, hnow]
      exact hq
    · rw [List.cons_append, steps, hnow]
      exact hstep

/-- Whatever a poller has gone through, the account is right before and after each step, and also
once readers have looked. -/
theorem steps_account (clock : Nat → Timestamp) (m : MonitorSettings) (start : Nat)
    (past : List Step) (s : Step) (rest : List Step) :
    ∃ p report q, (Poller.new m ::
          (steps clock start (Poller.new m) (past ++ s :: rest)).map (·.2))[past.length]? = some p ∧
      (steps clock start (Poller.new m) (past ++ s :: rest))[past.length]? = some (report, q) ∧
      Account clock m start past p ∧ Done m (start + spent m past) s p report q ∧
      ∀ asked : List Board.Step, (∀ a ∈ asked, a.replaces = false ∧ a.ends = false) →
        Account clock m start (past ++ [s]) { q with board := q.board.after asked } := by
  obtain ⟨p, hp, hstep, hpast⟩ := steps_reach (Account.new clock m start) past s rest
  rw [List.nil_append] at hstep hpast
  exact ⟨p, _, _, hp, hstep, hpast, step_done hpast _ s,
    fun asked => (step_account hpast s).read⟩

end PoolWatch.Poller
