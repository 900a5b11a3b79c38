import PoolWatch.Proofs.Poll.Timeline

/-!
# Whole runs

Which frames a loop publishes, and how its calls are spaced. Each holds for any replies, any
interval but zero and any time of cancellation.
-/

namespace PoolWatch.Poller

variable {s : Script} {m : MonitorSettings} {b : Board} {n : Nat} {run : Run}

theorem run_course (s : Script) {m : MonitorSettings} (h : 0 < m.pollIntervalMs.toNat) :
    ∃ run n, run? s m = some run ∧ Course s m .new 0 n run := by
  obtain ⟨n, hn⟩ := @loop_course s (new m) h 0 0 (AtRest.new s m) rfl rfl
  exact ⟨_, n, by rw [run?, dif_pos h], hn⟩

/-! ## Frames -/

/-- The frames of a loop are the first one, then one for each call and one for its outcome, and in
the end the stopped frame. Only the last call may miss its outcome, when the loop is cancelled in
the meantime. A reader finds the newest of these frames, and the board is closed at the end. -/
theorem run_frames (s : Script) {m : MonitorSettings} (h : 0 < m.pollIntervalMs.toNat) :
    ∃ run n, run? s m = some run ∧
      run.calls = (List.range n).map (s.callOf m) ∧
      run.frames = (0, .initial) :: ((List.range n).flatMap (s.cycleFrames m) ++
        [(s.cancelAt, s.stoppedFrame n)]) ∧
      (∀ i, i + 1 < n → s.Finishes m i) ∧
      (∀ i, i < n ↔ s.Starts m i) ∧
      (∀ i < n, s.startOf m i ≤ s.cancelAt) ∧
      (s.cancelAt = 0 → s.cancel.after = 0 → n = 0) ∧
      run.stoppedAt = s.cancelAt ∧
      (∀ time, (run.boardAt time).published = decide (time < s.cancelAt)) ∧
      ∀ time, ∃ before since after, run.frames = before ++ (since, run.frameAt time) :: after ∧
        since ≤ time ∧ ∀ x ∈ after, time < x.1 := by
  obtain ⟨run, n, hrun, hcourse⟩ := run_course s h
  have hissued : ∀ i, i < n ↔ s.Starts m i := fun i => by
    simpa using hcourse.issued i (Nat.zero_le i)
  refine ⟨run, n, hrun, ?_, ?_, ?_, hissued, ?_, ?_, hcourse.stopped, hcourse.published_at, ?_⟩
  · rw [hcourse.calls, List.range_eq_range']
  · rw [Run.frames, hcourse.frames, List.range_eq_range', Nat.zero_add]
    rfl
  · exact fun i hi => ((hissued (i + 1)).mp hi).finishes
  · exact fun i hi => ((hissued i).mp hi).le
  · intro htime hafter
    have hnever : ¬ s.Starts m 0 := by
      rintro (hlt | ⟨-, hlt⟩) <;> omega
    exact Nat.eq_zero_of_not_pos fun hpos => hnever ((hissued 0).mp hpos)
  · exact fun time => Board.newest_frame hcourse.ordered .new (Nat.zero_le time)

/-- One call a second, and half a second for each. -/
def everySecond : MonitorSettings := ⟨"http://localhost/", "get", 1000, 500⟩

/-- The first call fails after a while. All others hang. The loop is cancelled during the second. -/
def failsThenHangs : Script where
  replies
    | 0 => .after 100 (.error ⟨"http://localhost/", .timeout (.ofMillis 100)⟩)
    | _ => .never
  cancel := ⟨1200, 0⟩
  clock := fun now => ⟨now, 0⟩

theorem failsThenHangs_frames : 0 < everySecond.pollIntervalMs.toNat ∧
    ∃ run, run? failsThenHangs everySecond = some run ∧ run.frames =
      [(0, .initial), (0, ⟨1, .polling, .pending, none⟩),
        (100, ⟨1, .idle, .failed, some ⟨100, 0⟩⟩),
        (1000, ⟨2, .polling, .failed, some ⟨100, 0⟩⟩),
        (1200, ⟨2, .idle, .stopped, some ⟨1200, 0⟩⟩)] := by
  have h : 0 < everySecond.pollIntervalMs.toNat := by decide
  obtain ⟨run, n, hrun, -, hframes, -, hissued, -⟩ := run_frames failsThenHangs h
  have htwo : 1 < n := (hissued 1).mpr (by decide)
  have hthree : ¬ 2 < n := fun hn => absurd ((hissued 2).mp hn) (by decide)
  obtain rfl : n = 2 := by omega
  exact ⟨h, run, hrun, hframes⟩

/-- The reply to the third call comes at once, and whoever gives it cancels the loop. -/
def thirdCancels : Script where
  replies _ := .after 0 (.error ⟨"http://localhost/", .fault⟩)
  cancel := ⟨2000, 6⟩
  clock := fun now => ⟨now, 0⟩

example : ∃ run, run? thirdCancels everySecond = some run ∧ run.frames.drop 5 =
    [(2000, ⟨3, .polling, .failed, some ⟨1000, 0⟩⟩), (2000, ⟨3, .idle, .failed, some ⟨2000, 0⟩⟩),
      (2000, ⟨3, .idle, .stopped, some ⟨2000, 0⟩⟩)] := by
  obtain ⟨run, n, hrun, hcourse⟩ := run_course thirdCancels (m := everySecond) (by decide)
  have hthree : 2 < 0 + n := (hcourse.issued 2 (Nat.zero_le 2)).mpr (by decide)
  have hfour : ¬ 3 < 0 + n :=
    fun hn => absurd ((hcourse.issued 3 (Nat.zero_le 3)).mp hn) (by decide)
  obtain rfl : n = 3 := by omega
  exact ⟨run, hrun, by rw [Run.frames, hcourse.frames]; rfl⟩

/-! ## Calls -/

theorem took_le (s : Script) (m : MonitorSettings) (i : Nat) :
    s.took m i ≤ m.requestTimeoutMs.toNat := by
  unfold Script.took Reply.duration
  split
  · exact Nat.min_le_right _ _
  · exact Nat.le_refl _

theorem Course.call (h : Course s m b 0 n run) {i : Nat} {c : Call} (hc : run.calls[i]? = some c) :
    c = s.callOf m i := by
  rw [h.calls, List.getElem?_map] at hc
  obtain ⟨j, hj, rfl⟩ := Option.map_eq_some_iff.mp hc
  obtain ⟨-, rfl⟩ := List.getElem?_eq_some_iff.mp hj
  simp

/-- How the calls of a run are spaced. -/
structure Spaced (s : Script) (m : MonitorSettings) (run : Run) : Prop where
  /-- Whether there is a call is a matter of time only. -/
  issued : ∀ i, (∃ c, run.calls[i]? = some c) ↔ s.Starts m i
  starts : ∀ c i, run.calls[i]? = some c → c.startedAt = s.startOf m i
  first : s.startOf m 0 = 0
  took : ∀ i, s.took m i ≤ m.requestTimeoutMs.toNat
  /-- A call ends when its outcome is published. -/
  ends : ∀ c i, run.calls[i]? = some c → s.Finishes m i →
    (c.startedAt + s.took m i, s.settled m (i + 1)) ∈ run.frames
  spread : ∀ first c i, run.calls[0]? = some first → run.calls[i]? = some c →
    first.startedAt + i * m.pollIntervalMs.toNat ≤ c.startedAt
  apart : ∀ c d i, run.calls[i]? = some c → run.calls[i + 1]? = some d →
    c.startedAt + s.took m i ≤ d.startedAt ∧
    c.startedAt + m.pollIntervalMs.toNat ≤ d.startedAt + 5 ∧
    d.startedAt ≤ max (c.startedAt + m.pollIntervalMs.toNat) (c.startedAt + s.took m i)
  /-- Nothing but the cancellation keeps the next call from being made. -/
  prompt : ∀ c i, run.calls[i]? = some c →
    max (c.startedAt + m.pollIntervalMs.toNat) (c.startedAt + s.took m i) < s.cancelAt →
    ∃ d, run.calls[i + 1]? = some d
  steady : ∀ first c i, run.calls[0]? = some first → run.calls[i]? = some c →
    (∀ j < i, s.took m j ≤ m.pollIntervalMs.toNat) →
    c.startedAt = first.startedAt + i * m.pollIntervalMs.toNat
  count : run.calls.length ≤ s.cancelAt / m.pollIntervalMs.toNat + 1

theorem Course.issued_iff (h : Course s m b 0 n run) (i : Nat) :
    (∃ c, run.calls[i]? = some c) ↔ s.Starts m i := by
  rw [← h.issued i (Nat.zero_le i), Nat.zero_add, ← Option.isSome_iff_exists, h.calls]
  simp

theorem Course.settled_mem (h : Course s m .new 0 n run) {i : Nat} (hi : s.Starts m i)
    (hend : s.Finishes m i) : (s.endOf m i, s.settled m (i + 1)) ∈ run.frames := by
  have hcycle : (s.endOf m i, s.settled m (i + 1)) ∈ s.cycleFrames m i := by
    simp [Script.cycleFrames, hend]
  have hrange : i ∈ List.range' 0 n :=
    List.mem_range'_1.mpr ⟨Nat.zero_le i, (h.issued i (Nat.zero_le i)).mpr hi⟩
  rw [Run.frames, h.frames]
  exact List.mem_cons_of_mem _ (List.mem_append_left _ (List.mem_flatMap.mpr ⟨i, hrange, hcycle⟩))

theorem Course.length_le (h : Course s m b 0 n run) (hinterval : 0 < m.pollIntervalMs.toNat) :
    run.calls.length ≤ s.cancelAt / m.pollIntervalMs.toNat + 1 := by
  rw [h.calls, List.length_map, List.length_range']
  cases n with
  | zero => exact Nat.zero_le _
  | succ n =>
    have hlast : s.startOf m n ≤ s.cancelAt := ((h.issued n (Nat.zero_le n)).mp (by omega)).le
    have hmul : n * m.pollIntervalMs.toNat ≤ s.startOf m n := Cadence.mul_le_start _ _ n
    have hdiv := (Nat.le_div_iff_mul_le hinterval).mpr (Nat.le_trans hmul hlast)
    omega

/-- The calls keep to the interval and never overlap. A call starts as soon as its interval and the
call before allow, unless the loop is cancelled by then. Without long calls the starts do not
drift. -/
theorem run_cadence (s : Script) {m : MonitorSettings} (h : 0 < m.pollIntervalMs.toNat) :
    ∃ run : Run, run? s m = some run ∧ Spaced s m run := by
  obtain ⟨run, n, hrun, hcourse⟩ := run_course s h
  have hstarts : ∀ {c i}, run.calls[i]? = some c → c.startedAt = s.startOf m i :=
    fun hc => congrArg Call.startedAt (hcourse.call hc)
  have hfirst : s.startOf m 0 = 0 := rfl
  have hnext : ∀ i, s.startOf m (i + 1) ≤
      max (s.startOf m i + m.pollIntervalMs.toNat) (s.startOf m i + s.took m i) :=
    Cadence.start_succ_le _ _
  refine ⟨run, hrun, hcourse.issued_iff, fun _ _ => hstarts, hfirst, took_le s m, ?_, ?_, ?_, ?_,
    ?_, hcourse.length_le h⟩
  · intro c i hc hend
    rw [hstarts hc]
    exact hcourse.settled_mem ((hcourse.issued_iff i).mp ⟨c, hc⟩) hend
  · intro first c i hc₀ hc
    rw [hstarts hc₀, hstarts hc, hfirst, Nat.zero_add]
    exact Cadence.mul_le_start _ _ i
  · intro c d i hc hd
    rw [hstarts hc, hstarts hd]
    exact ⟨Cadence.finish_le_start_succ _ _ i, Cadence.start_add_le _ _ i, hnext i⟩
  · intro c i hc hearly
    rw [hstarts hc] at hearly
    exact (hcourse.issued_iff (i + 1)).mpr (.inl (Nat.lt_of_le_of_lt (hnext i) hearly))
  · intro first c i hc₀ hc hshort
    rw [hstarts hc₀, hstarts hc, hfirst, Nat.zero_add]
    exact Cadence.start_eq_mul hshort

theorem failsThenHangs_cadence : 0 < everySecond.pollIntervalMs.toNat ∧
    ∃ run : Run, run? failsThenHangs everySecond = some run ∧
      (∃ c, run.calls[0]? = some c ∧ c.startedAt = 0) ∧
      (∃ d, run.calls[1]? = some d ∧ d.startedAt = 1000) ∧
      run.calls[2]? = none ∧ run.calls.length ≤ 2 := by
  have h : 0 < everySecond.pollIntervalMs.toNat := by decide
  obtain ⟨run, hrun, hspaced⟩ := run_cadence failsThenHangs h
  have hnone : ¬ ∃ c, run.calls[2]? = some c := by
    rw [hspaced.issued]
    decide
  obtain ⟨c, hc⟩ := (hspaced.issued 0).mpr (by decide)
  obtain ⟨d, hd⟩ := hspaced.prompt c 0 hc (by rw [hspaced.starts c 0 hc]; decide)
  have hsteady := hspaced.steady c d 1 hc hd (by decide)
  rw [hspaced.starts c 0 hc] at hsteady
  refine ⟨h, run, hrun, ⟨c, hc, hspaced.starts c 0 hc⟩, ⟨d, hd, hsteady⟩, ?_, hspaced.count⟩
  exact Option.eq_none_iff_forall_ne_some.mpr fun c hc => hnone ⟨c, hc⟩

end PoolWatch.Poller
