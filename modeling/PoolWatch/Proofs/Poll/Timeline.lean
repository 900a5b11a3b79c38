import Mathlib.Data.List.TakeWhile
import PoolWatch.Proofs.Poll.Course

/-!
# The board over time

What a reader finds at any time is the newest frame of the run. The board is open until the loop is
cancelled, and closed from then on.
-/

namespace PoolWatch

/-! ## Any updates -/

theorem Board.after_append (b : Board) (xs ys : List Board.Step) :
    b.after (xs ++ ys) = (b.after xs).after ys := List.foldl_append

theorem Board.framesFrom_times (b : Board) (updates : List (Nat × Board.Step)) :
    (b.framesFrom updates).map (·.1) = updates.map (·.1) := by
  induction updates generalizing b with
  | nil => rfl
  | cons u rest ih => simp [Board.framesFrom, ih]

/-- The updates are in the order of their times. -/
def Ordered (updates : List (Nat × Board.Step)) : Prop := updates.Pairwise (·.1 ≤ ·.1)

/-- The frame on the board at a time is the last one that is not younger. -/
theorem Board.newest_frame {updates : List (Nat × Board.Step)} (h : Ordered updates) (b : Board)
    {ahead time : Nat} (hahead : ahead ≤ time) : ∃ before since after,
      (ahead, b.frame) :: b.framesFrom updates = before ++
        (since, (b.after ((updates.takeWhile (·.1 ≤ time)).map (·.2))).frame) :: after ∧
      since ≤ time ∧ ∀ x ∈ after, time < x.1 := by
  induction updates generalizing b ahead with
  | nil => exact ⟨[], ahead, [], rfl, hahead, by simp⟩
  | cons u rest ih =>
    obtain ⟨now, s⟩ := u
    obtain ⟨hfirst, hrest⟩ := List.pairwise_cons.mp h
    by_cases hnow : now ≤ time
    · obtain ⟨before, since, after, hframes, hsince, hafter⟩ := ih hrest (b.step s).2 hnow
      refine ⟨(ahead, b.frame) :: before, since, after, ?_, hsince, hafter⟩
      rw [Board.framesFrom, hframes, List.takeWhile_cons_of_pos (by simpa using hnow)]
      rfl
    · refine ⟨[], ahead, b.framesFrom ((now, s) :: rest), ?_, hahead, ?_⟩
      · rw [List.takeWhile_cons_of_neg (by simpa using hnow)]
        rfl
      · intro x hx
        have htimes : x.1 ∈ ((now, s) :: rest).map (·.1) := by
          rw [← Board.framesFrom_times b]
          exact List.mem_map_of_mem hx
        obtain ⟨y, hy, hyx⟩ := List.mem_map.mp htimes
        have hnext : now ≤ y.1 := by
          rcases List.mem_cons.mp hy with rfl | hy
          · exact Nat.le_refl _
          · exact hfirst y hy
        omega

/-- An update after which the publisher is still there. -/
def Keeps : Board.Step → Prop
  | .beginCycle _ => True
  | .publish _ _ => True
  | _ => False

theorem Board.published_after {steps : List Board.Step} (h : ∀ s ∈ steps, Keeps s) {b : Board}
    (hb : b.published = true) : (b.after steps).published = true := by
  induction steps generalizing b with
  | nil => exact hb
  | cons s rest ih =>
    obtain ⟨hs, hrest⟩ := List.forall_mem_cons.mp h
    have hstep : (b.step s).2.published = true := by
      cases s <;> simp_all [Keeps, Board.step, Board.publisherStep, Board.replace]
    exact ih hrest hstep

theorem Board.published_shutdown {b : Board} (h : b.published = true) (time : Timestamp) :
    (b.step (.shutdown time)).2.published = false := by
  simp [Board.step, Board.publisherStep, h, Board.close]

/-! ## The updates of a loop -/

namespace Poller

variable {s : Script} {m : MonitorSettings}

theorem Script.cycleUpdates_time {i : Nat} {u : Nat × Board.Step} (h : u ∈ s.cycleUpdates m i) :
    s.startOf m i ≤ u.1 ∧ u.1 ≤ s.startOf m (i + 1) := by
  have hlast : s.startOf m i ≤ s.endOf m i := Nat.le_add_right _ _
  have hnext : s.endOf m i ≤ s.startOf m (i + 1) := Cadence.finish_le_start_succ _ _ _
  unfold Script.cycleUpdates at h
  rcases List.mem_cons.mp h with rfl | h
  · exact ⟨Nat.le_refl _, by omega⟩
  · split at h
    · obtain rfl := List.mem_singleton.mp h
      exact ⟨hlast, hnext⟩
    · simp at h

theorem Script.cycleUpdates_le {i : Nat} (hi : s.Starts m i) {u : Nat × Board.Step}
    (h : u ∈ s.cycleUpdates m i) : u.1 ≤ s.cancelAt := by
  unfold Script.cycleUpdates at h
  rcases List.mem_cons.mp h with rfl | h
  · exact hi.le
  · split at h
    · rename_i hend
      obtain rfl := List.mem_singleton.mp h
      exact hend.le
    · simp at h

theorem Script.cycleUpdates_keeps {i : Nat} {u : Nat × Board.Step} (h : u ∈ s.cycleUpdates m i) :
    Keeps u.2 := by
  unfold Script.cycleUpdates at h
  rcases List.mem_cons.mp h with rfl | h
  · trivial
  · split at h
    · obtain rfl := List.mem_singleton.mp h
      trivial
    · simp at h

variable {b : Board} {n : Nat} {run : Run}

namespace Course

/-- Before the end there are only whole cycles and at most one that is cut short. -/
theorem update_cases (h : Course s m b 0 n run) {u : Nat × Board.Step} (hu : u ∈ run.updates) :
    (u.1 ≤ s.cancelAt ∧ Keeps u.2) ∨ u = s.shutdown := by
  rw [h.updates] at hu
  rcases List.mem_append.mp hu with hu | hu
  · obtain ⟨i, hi, hu⟩ := List.mem_flatMap.mp hu
    have hn : i < 0 + n := (List.mem_range'_1.mp hi).2
    exact Or.inl ⟨Script.cycleUpdates_le ((h.issued i (Nat.zero_le i)).mp hn) hu,
      Script.cycleUpdates_keeps hu⟩
  · exact Or.inr (List.mem_singleton.mp hu)

theorem ordered (h : Course s m b 0 n run) : Ordered run.updates := by
  rw [Ordered, h.updates, List.pairwise_append, List.pairwise_flatMap]
  refine ⟨⟨?_, ?_⟩, List.pairwise_singleton _ _, ?_⟩
  · intro i _
    have hlast : s.startOf m i ≤ s.endOf m i := Nat.le_add_right _ _
    unfold Script.cycleUpdates
    split <;> simp [hlast]
  · refine List.Pairwise.imp ?_ (List.pairwise_lt_range' 1)
    intro i j hij x hx y hy
    have hx := (Script.cycleUpdates_time hx).2
    have hy := (Script.cycleUpdates_time hy).1
    have hmono : s.startOf m (i + 1) ≤ s.startOf m j := Cadence.start_mono hij
    omega
  · intro x hx y hy
    obtain rfl := List.mem_singleton.mp hy
    obtain ⟨i, hi, hx⟩ := List.mem_flatMap.mp hx
    have hn : i < 0 + n := (List.mem_range'_1.mp hi).2
    exact Script.cycleUpdates_le ((h.issued i (Nat.zero_le i)).mp hn) hx

theorem published_at (h : Course s m b 0 n run) (time : Nat) :
    (run.boardAt time).published = decide (time < s.cancelAt) := by
  by_cases htime : time < s.cancelAt
  · rw [decide_eq_true htime]
    refine Board.published_after (fun step hstep => ?_) rfl
    obtain ⟨u, hu, rfl⟩ := List.mem_map.mp hstep
    have hearly : u.1 ≤ time := by simpa using List.mem_takeWhile_imp hu
    rcases h.update_cases ((List.takeWhile_sublist _).subset hu) with ⟨-, hkeeps⟩ | rfl
    · exact hkeeps
    · exact absurd hearly (Nat.not_le_of_lt htime)
  · rw [decide_eq_false htime]
    have hall : ∀ u ∈ run.updates, u.1 ≤ time := by
      intro u hu
      rcases h.update_cases hu with ⟨hle, -⟩ | rfl
      · omega
      · exact Nat.le_of_not_lt htime
    have hkeeps : ∀ step ∈ ((List.range' 0 n).flatMap (s.cycleUpdates m)).map (·.2),
        Keeps step := by
      intro step hstep
      obtain ⟨u, hu, rfl⟩ := List.mem_map.mp hstep
      obtain ⟨i, -, hu⟩ := List.mem_flatMap.mp hu
      exact Script.cycleUpdates_keeps hu
    have hopen := Board.published_after hkeeps (show Board.new.published = true from rfl)
    rw [Run.boardAt, List.takeWhile_eq_self_iff.mpr (by simpa using hall), h.updates,
      List.map_append, Board.after_append]
    exact Board.published_shutdown hopen (s.clock s.cancelAt)

end Course

end Poller

end PoolWatch
