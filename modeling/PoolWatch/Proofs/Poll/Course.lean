import PoolWatch.Poll.Loop
import PoolWatch.Proofs.Poll.Schedule

/-!
# The course of a loop

What a loop does is laid out here by the number of the call. No cycle depends on how the ones before
turned out, but for the frame that they leave behind.
-/

namespace PoolWatch.Poller

namespace Script

theorem Reaches.mono {s : Script} {event event' time time' : Nat} (h : s.Reaches event' time')
    (hevent : event ≤ event') (htime : time ≤ time') : s.Reaches event time := by
  rcases h with hlt | ⟨heq, hafter⟩
  · exact .inl (Nat.lt_of_le_of_lt htime hlt)
  · rcases Nat.lt_or_eq_of_le htime with hlt | rfl
    · exact .inl (heq ▸ hlt)
    · exact .inr ⟨heq, Nat.lt_of_le_of_lt hevent hafter⟩

variable (s : Script) (m : MonitorSettings)

/-! ## One cycle -/

def took (i : Nat) : Nat := (s.replies i).duration m.requestTimeoutMs.toNat

def startOf (i : Nat) : Nat := Cadence.start m.pollIntervalMs.toNat (s.took m) i

def endOf (i : Nat) : Nat := Cadence.finish m.pollIntervalMs.toNat (s.took m) i

/-- Call `i` is made before the loop is cancelled. -/
def Starts (i : Nat) : Prop := s.Reaches (2 * i) (s.startOf m i)

/-- Call `i` comes back before the loop is cancelled, if it is made. -/
def Finishes (i : Nat) : Prop := s.Reaches (2 * i + 1) (s.endOf m i)

instance (i : Nat) : Decidable (s.Starts m i) := inferInstanceAs (Decidable (s.Reaches _ _))

instance (i : Nat) : Decidable (s.Finishes m i) := inferInstanceAs (Decidable (s.Reaches _ _))

theorem Starts.finishes {s : Script} {m : MonitorSettings} {i : Nat} (h : s.Starts m (i + 1)) :
    s.Finishes m i := h.mono (by omega) (Cadence.finish_le_start_succ _ _ _)

theorem Starts.mono {s : Script} {m : MonitorSettings} {i j : Nat} (h : s.Starts m j)
    (hij : i ≤ j) : s.Starts m i := Reaches.mono h (by omega) (Cadence.start_mono hij)

def outcome (i : Nat) : DisplayModel := ((s.replies i).refresh m).model

/-- The frame that whole cycles leave behind. -/
def settled : Nat → Frame
  | 0 => .initial
  | i + 1 => ⟨i + 1, .idle, s.outcome m i, some (s.clock (s.endOf m i))⟩

/-- The frame while a call is outstanding. -/
def polling (i : Nat) : Frame :=
  ⟨i + 1, .polling, (s.settled m i).model, (s.settled m i).publishedAt⟩

def callOf (i : Nat) : Call := ⟨s.startOf m i, m.endpoint, m.method, s.polling m i⟩

/-- A cycle that is not cancelled publishes its outcome. -/
def cycleFrames (i : Nat) : List (Nat × Frame) :=
  (s.startOf m i, s.polling m i) ::
    if s.Finishes m i then [(s.endOf m i, s.settled m (i + 1))] else []

def cycleUpdates (i : Nat) : List (Nat × Board.Step) :=
  (s.startOf m i, .beginCycle (i + 1)) ::
    if s.Finishes m i then
      [(s.endOf m i, .publish (s.outcome m i) (s.clock (s.endOf m i)))]
    else []

/-! ## The end -/

def stoppedFrame (n : Nat) : Frame := ⟨n, .idle, .stopped, some (s.clock s.cancelAt)⟩

def shutdown : Nat × Board.Step := (s.cancelAt, .shutdown (s.clock s.cancelAt))

end Script

/-! ## The loop -/

/-- A run of `n` cycles from the one with number `i` on. -/
structure Course (s : Script) (m : MonitorSettings) (b : Board) (i n : Nat) (run : Run) : Prop where
  calls : run.calls = (List.range' i n).map (s.callOf m)
  updates : run.updates = (List.range' i n).flatMap (s.cycleUpdates m) ++ [s.shutdown]
  frames : b.framesFrom run.updates =
    (List.range' i n).flatMap (s.cycleFrames m) ++ [(s.cancelAt, s.stoppedFrame (i + n))]
  stopped : run.stoppedAt = s.cancelAt
  /-- Whether there is a call is a matter of time only. -/
  issued : ∀ j, i ≤ j → (j < i + n ↔ s.Starts m j)

/-- Between two cycles. -/
structure AtRest (s : Script) (p : Poller) : Prop where
  frame : p.board.frame = s.settled p.settings p.cycle
  published : p.board.published = true

variable {s : Script} {p : Poller}

theorem AtRest.new (s : Script) (m : MonitorSettings) : AtRest s (Poller.new m) := ⟨rfl, rfl⟩

theorem AtRest.frame_cycle (h : AtRest s p) : p.board.frame.cycle = p.cycle := by
  rw [h.frame]
  cases p.cycle <;> rfl

theorem AtRest.begin (h : AtRest s p) : p.begin.board.frame = s.polling p.settings p.cycle ∧
    p.begin.board.published = true := by
  simp [Poller.begin, update, Board.step, Board.publisherStep, h.published, Board.replace,
    Frame.beginCycle, Script.polling, h.frame]

theorem AtRest.call (h : AtRest s p) :
    p.begin.call (s.startOf p.settings p.cycle) = s.callOf p.settings p.cycle := by
  rw [Poller.call, Poller.frame, h.begin.1, Script.callOf]
  rfl

/-- The poller after one more whole cycle. -/
def afterCycle (s : Script) (p : Poller) : Poller :=
  p.begin.finish (s.outcome p.settings p.cycle) (s.clock (s.endOf p.settings p.cycle))

theorem AtRest.finish (h : AtRest s p) : AtRest s (p.afterCycle s) where
  frame := by
    simp [afterCycle, Poller.finish, update, Board.step, Board.publisherStep, h.begin,
      Board.replace, Frame.publish, Script.polling]
    rfl
  published := by
    simp [afterCycle, Poller.finish, update, Board.step, Board.publisherStep, h.begin,
      Board.replace]

theorem shutdown_frame {b : Board} (h : b.published = true) (s : Script) :
    (b.step (.shutdown (s.clock s.cancelAt))).2.frame = s.stoppedFrame b.frame.cycle := by
  simp [Board.step, Board.publisherStep, h, Board.replace, Board.close, Frame.publish,
    Script.stoppedFrame]

theorem AtRest.stop (h : AtRest s p) (hstart : ¬ s.Starts p.settings p.cycle) :
    Course s p.settings p.board p.cycle 0 (stop s) where
  calls := rfl
  updates := rfl
  frames := by
    have hstop := shutdown_frame h.published s
    rw [h.frame_cycle] at hstop
    simp [Poller.stop, Board.framesFrom, hstop]
  stopped := rfl
  issued := by
    intro j hj
    exact iff_of_false (by omega) fun hj' => hstart (hj'.mono hj)

theorem AtRest.cut (h : AtRest s p) (hstart : s.Starts p.settings p.cycle)
    (hend : ¬ s.Finishes p.settings p.cycle) :
    Course s p.settings p.board p.cycle 1
      ⟨[s.callOf p.settings p.cycle],
        (s.startOf p.settings p.cycle, .beginCycle (p.cycle + 1)) :: (Poller.stop s).updates,
        (Poller.stop s).stoppedAt⟩ where
  calls := rfl
  updates := by simp [Script.cycleUpdates, hend, Poller.stop, Script.shutdown]
  frames := by
    obtain ⟨hbegin, hpublished⟩ := h.begin
    have hstop := shutdown_frame hpublished s
    rw [hbegin] at hstop
    calc p.board.framesFrom _
      _ = [(s.startOf p.settings p.cycle, p.begin.board.frame),
          (s.cancelAt, (p.begin.board.step (.shutdown (s.clock s.cancelAt))).2.frame)] := rfl
      _ = _ := by
        rw [hbegin, hstop]
        simp [Script.cycleFrames, hend, Script.polling]
  stopped := rfl
  issued := by
    intro j hj
    rcases Nat.eq_or_lt_of_le hj with rfl | hlt
    · simp [hstart]
    · exact iff_of_false (by omega) fun hj' => hend (hj'.mono hlt).finishes

/-- A whole cycle before the rest of the loop. -/
theorem AtRest.cycle (h : AtRest s p) (hstart : s.Starts p.settings p.cycle)
    (hend : s.Finishes p.settings p.cycle) {n : Nat} {rest : Run}
    (hrest : Course s p.settings (p.afterCycle s).board (p.cycle + 1) n rest) :
    Course s p.settings p.board p.cycle (n + 1)
      ⟨s.callOf p.settings p.cycle :: rest.calls,
        (s.startOf p.settings p.cycle, .beginCycle (p.cycle + 1)) ::
          (s.endOf p.settings p.cycle, .publish (s.outcome p.settings p.cycle)
            (s.clock (s.endOf p.settings p.cycle))) :: rest.updates, rest.stoppedAt⟩ where
  calls := by rw [List.range'_succ, List.map_cons, hrest.calls]
  updates := by simp [List.range'_succ, hrest.updates, Script.cycleUpdates, hend]
  frames := by
    have hfinish : (p.afterCycle s).board.frame = s.settled p.settings (p.cycle + 1) :=
      h.finish.frame
    calc p.board.framesFrom _
      _ = (s.startOf p.settings p.cycle, p.begin.board.frame) ::
          (s.endOf p.settings p.cycle, (p.afterCycle s).board.frame) ::
          (p.afterCycle s).board.framesFrom rest.updates := rfl
      _ = _ := by
        rw [h.begin.1, hfinish, hrest.frames, List.range'_succ, List.flatMap_cons,
          Script.cycleFrames, if_pos hend, Nat.succ_add_eq_add_succ]
        rfl
  stopped := hrest.stopped
  issued := by
    intro j hj
    rcases Nat.eq_or_lt_of_le hj with rfl | hlt
    · simp [hstart]
    · rw [← hrest.issued j hlt]
      omega

theorem loop_course (h : 0 < p.settings.pollIntervalMs.toNat) {now due : Nat} (hp : AtRest s p)
    (hdue : due = Cadence.due p.settings.pollIntervalMs.toNat (s.took p.settings) p.cycle)
    (hstart : max now due = s.startOf p.settings p.cycle) :
    ∃ n, Course s p.settings p.board p.cycle n (p.loop s h now due) := by
  fun_induction Poller.loop s p h now due with
  | case1 p h now due start hlt q reply finished hfin model r rest ih =>
    have hs : start = s.startOf p.settings p.cycle := hstart
    clear_value start
    subst hs hdue
    obtain ⟨n, hrest⟩ := ih hp.finish rfl rfl
    have hcycle := hp.cycle hlt hfin hrest
    rw [← hp.call] at hcycle
    exact ⟨n + 1, hcycle⟩
  | case2 p h now due start hlt q reply finished hfin =>
    have hs : start = s.startOf p.settings p.cycle := hstart
    clear_value start
    subst hs
    have hcut := hp.cut hlt hfin
    rw [← hp.call] at hcut
    exact ⟨1, hcut⟩
  | case3 p h now due start hlt =>
    have hs : start = s.startOf p.settings p.cycle := hstart
    clear_value start
    subst hs
    exact ⟨0, hp.stop hlt⟩

end PoolWatch.Poller
