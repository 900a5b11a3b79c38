import PoolWatch.Proofs.Poll.Listening
import PoolWatch.Proofs.Poll.Runs

/-!
# Watching a loop

A watcher keeps asking for frames until there are no more, and keeps those without an outstanding
call. It may be as slow as it likes.
-/

namespace PoolWatch

namespace Board

/-! ## The steps of a publisher one by one -/

/-- The publisher first puts up the stopped frame and then goes away. A reader may come between. -/
def Step.parts : Step → List Step
  | .shutdown time => [.publish .stopped time, .dropPublisher]
  | s => [s]

theorem after_parts (b : Board) (s : Step) : b.after s.parts = (b.step s).2 := by
  cases s with
  | shutdown time =>
    cases hp : b.published <;> simp [Step.parts, after, step, publisherStep, hp, replace, close]
  | _ => rfl

theorem after_flatMap_parts (b : Board) (steps : List Step) :
    b.after (steps.flatMap Step.parts) = b.after steps := by
  induction steps generalizing b with
  | nil => rfl
  | cons s rest ih =>
    calc b.after ((s :: rest).flatMap Step.parts)
      _ = (b.after s.parts).after (rest.flatMap Step.parts) := by
        rw [List.flatMap_cons, after, List.foldl_append]
        rfl
      _ = (b.step s).2.after rest := by rw [after_parts, ih]

theorem replaces_of_keeps {s : Step} (h : Keeps s) : (s.replaces || s.ends) = true := by
  cases s <;> first | rfl | exact h.elim

theorem parts_of_keeps {s : Step} (h : Keeps s) : s.parts = [s] := by
  cases s <;> first | rfl | exact h.elim

theorem flatMap_parts {steps : List Step} (h : ∀ s ∈ steps, Keeps s) :
    steps.flatMap Step.parts = steps := by
  induction steps with
  | nil => rfl
  | cons s rest ih =>
    obtain ⟨hs, hrest⟩ := List.forall_mem_cons.mp h
    rw [List.flatMap_cons, parts_of_keeps hs, ih hrest, List.singleton_append]

theorem framesFrom_concat (b : Board) (updates : List (Nat × Step)) (time : Nat) (s : Step) :
    b.framesFrom (updates ++ [(time, s)]) =
      b.framesFrom updates ++ [(time, ((b.after (updates.map (·.2))).step s).2.frame)] := by
  induction updates generalizing b with
  | nil => rfl
  | cons u rest ih =>
    rw [List.cons_append, framesFrom, framesFrom, ih]
    rfl

/-- What a watcher keeps of what it is told. -/
def kept (answers : List Answer) : List Frame := (framesOf answers).filter (·.state = .idle)

end Board

namespace Poller

open Board (Mixed kept)

variable {s : Script} {m : MonitorSettings} {n : Nat} {run : Run}

/-! ## What a loop has to tell -/

/-- The updates of a loop up to and with the stopped frame. -/
def Script.tellings (s : Script) (m : MonitorSettings) (n : Nat) : List (Nat × Board.Step) :=
  (List.range' 0 n).flatMap (s.cycleUpdates m) ++
    [(s.cancelAt, .publish .stopped (s.clock s.cancelAt))]

theorem Script.tellings_keeps {u : Nat × Board.Step} (h : u ∈ s.tellings m n) : Keeps u.2 := by
  rcases List.mem_append.mp h with h | h
  · obtain ⟨i, -, hu⟩ := List.mem_flatMap.mp h
    exact Script.cycleUpdates_keeps hu
  · obtain rfl := List.mem_singleton.mp h
    trivial

theorem Course.parts (h : Course s m .new 0 n run) :
    (run.updates.map (·.2)).flatMap Board.Step.parts =
      (s.tellings m n).map (·.2) ++ [.dropPublisher] := by
  have hkeeps : ∀ step ∈ ((List.range' 0 n).flatMap (s.cycleUpdates m)).map (·.2), Keeps step := by
    intro step hstep
    obtain ⟨u, hu, rfl⟩ := List.mem_map.mp hstep
    exact Script.tellings_keeps (List.mem_append_left _ hu)
  rw [h.updates, List.map_append, List.flatMap_append, Board.flatMap_parts hkeeps,
    Script.tellings, List.map_append, List.append_assoc]
  rfl

theorem Course.told (h : Course s m .new 0 n run) :
    (Board.new.framesFrom (s.tellings m n)).map (·.2) =
      ((List.range' 0 n).flatMap (s.cycleFrames m)).map (·.2) ++ [s.stoppedFrame n] := by
  have htold : Board.new.framesFrom (s.tellings m n) =
      (List.range' 0 n).flatMap (s.cycleFrames m) ++ [(s.cancelAt, s.stoppedFrame n)] := by
    have hframes := h.frames
    rw [h.updates, Script.shutdown, Board.framesFrom_concat, Board.step_frame,
      Nat.zero_add] at hframes
    rw [Script.tellings, Board.framesFrom_concat, Board.step_frame]
    exact hframes
  rw [htold, List.map_append]
  rfl

theorem Script.idle_cycleFrames (indices : List Nat) :
    ((indices.flatMap (s.cycleFrames m)).map (·.2)).filter (·.state = .idle) =
      (indices.filter (s.Finishes m ·)).map fun i => s.settled m (i + 1) := by
  induction indices with
  | nil => rfl
  | cons i rest ih =>
    rw [List.flatMap_cons, List.map_append, List.filter_append, ih, List.filter_cons]
    by_cases hend : s.Finishes m i <;>
      simp [Script.cycleFrames, hend, Script.polling, Script.settled]

theorem Script.outcome_ne (s : Script) (m : MonitorSettings) (i : Nat) :
    s.outcome m i ≠ .pending ∧ s.outcome m i ≠ .stopped := by
  unfold Script.outcome Refresh.model
  split <;> simp [DisplayModel.failed]

theorem sublist_concat {α : Type} {l xs : List α} {x : α} (h : l.Sublist (xs ++ [x]))
    (hlast : l.getLast? = some x) : ∃ front, l = front ++ [x] ∧ front.Sublist xs := by
  obtain ⟨front, rfl⟩ := List.getLast?_eq_some_iff.mp hlast
  exact ⟨front, rfl, List.append_sublist_append_right _ |>.mp h⟩

/-! ## What a watcher keeps -/

/-- What a watcher keeps of a loop with `n` calls: outcomes of some cycles in their order, and in
the end the stopped frame. -/
theorem Script.kept_told {told : List Board.Answer}
    (hsub : (Board.framesOf told).Sublist
      (((List.range' 0 n).flatMap (s.cycleFrames m)).map (·.2) ++ [s.stoppedFrame n]))
    (hlast : (Board.framesOf told).getLast? = some (s.stoppedFrame n)) :
    ∃ indices : List Nat, indices.Sublist (List.range' 0 n) ∧ kept told =
      (indices.map fun i => s.settled m (i + 1)) ++ [s.stoppedFrame n] := by
  obtain ⟨front, hfront, hsub⟩ := sublist_concat hsub hlast
  have hidle := hsub.filter (·.state = .idle)
  rw [Script.idle_cycleFrames] at hidle
  obtain ⟨indices, hindices, hkept⟩ := List.sublist_map_iff.mp hidle
  refine ⟨indices, hindices.trans List.filter_sublist, ?_⟩
  rw [kept, hfront, List.filter_append, hkept]
  rfl

theorem Script.settled_cycles {indices : List Nat} (h : indices.Sublist (List.range' 0 n)) :
    ((indices.map fun i => s.settled m (i + 1)).map (·.cycle)).Pairwise (· < ·) := by
  have hindices : indices.Pairwise (· < ·) := (List.pairwise_lt_range' 1).sublist h
  rw [List.map_map, List.pairwise_map]
  exact hindices.imp fun hlt => Nat.succ_lt_succ hlt

theorem Script.closed_heard {mixed : List Board.Step}
    (hmixed : Mixed 0 ((s.tellings m n).map (·.2) ++ [.dropPublisher]) mixed) :
    .closed ∈ Board.new.heard 0 (mixed ++ [.changed 0, .changed 0]) := by
  have hends : (mixed.any Board.Step.ends) = true :=
    List.any_eq_true.mpr ⟨.dropPublisher, hmixed.mem (by simp), rfl⟩
  have hclosed : (Board.new.after mixed).published = false := by
    rw [Board.after_published, hends]
    rfl
  have hpublisher : ∀ step ∈ (s.tellings m n).map (·.2) ++ [.dropPublisher],
      (step.replaces || step.ends) = true := by
    intro step hstep
    rcases List.mem_append.mp hstep with hstep | hstep
    · obtain ⟨u, hu, rfl⟩ := List.mem_map.mp hstep
      exact Board.replaces_of_keeps (Script.tellings_keeps hu)
    · obtain rfl := List.mem_singleton.mp hstep
      rfl
  obtain ⟨now, hnow⟩ := hmixed.there hpublisher (show Board.new.seen? 0 = some 0 from rfl)
  rw [Board.heard_append]
  exact List.mem_append_right _ (Board.closed_mem_heard hclosed hnow)

/-- However slow a watcher is: it keeps outcomes of whole cycles, each with the number of its own
cycle and in their order, then the stopped frame once, and then there are no more frames. -/
theorem run_watched (s : Script) {m : MonitorSettings} (h : 0 < m.pollIntervalMs.toNat) :
    ∃ run, run? s m = some run ∧
      Board.new.after ((run.updates.map (·.2)).flatMap Board.Step.parts) = run.board ∧
      ∀ mixed, Mixed 0 ((run.updates.map (·.2)).flatMap Board.Step.parts) mixed →
        .closed ∈ Board.new.heard 0 (mixed ++ [.changed 0, .changed 0]) ∧
        (.closed ∈ Board.new.heard 0 mixed → ∃ earlier count frames,
          Board.new.heard 0 mixed = earlier ++ List.replicate (count + 1) .closed ∧
          .closed ∉ earlier ∧
          kept earlier = frames ++ [s.stoppedFrame run.calls.length] ∧
          (frames.map (·.cycle)).Pairwise (· < ·) ∧
          ∀ f ∈ frames, f.model ≠ .pending ∧ f.model ≠ .stopped ∧ ∃ i < run.calls.length,
            f = ⟨i + 1, .idle, s.outcome m i, some (s.clock (s.endOf m i))⟩) := by
  obtain ⟨run, n, hrun, hcourse⟩ := run_course s h
  have hcalls : run.calls.length = n := by
    rw [hcourse.calls, List.length_map, List.length_range']
  refine ⟨run, hrun, Board.after_flatMap_parts _ _, fun mixed hmixed => ?_⟩
  rw [hcourse.parts] at hmixed
  refine ⟨Script.closed_heard hmixed, fun hclosed => ?_⟩
  have hhears := Board.hears_mixed (fun u hu => Script.tellings_keeps hu) rfl
    (show Board.new.seen? 0 = some 0 from rfl) (Nat.le_refl 0) hmixed
  rw [hcourse.told] at hhears
  obtain ⟨earlier, count, hheard, hearlier, hsub, hlast⟩ := hhears.ended hclosed
  obtain ⟨indices, hindices, hkept⟩ := Script.kept_told hsub
    (by rw [hlast, ← List.append_assoc, List.getLast?_concat])
  refine ⟨earlier, count, _, hheard, hearlier, hcalls ▸ hkept, Script.settled_cycles hindices, ?_⟩
  intro f hf
  obtain ⟨i, hi, rfl⟩ := List.mem_map.mp hf
  have hn : i < 0 + n := (List.mem_range'_1.mp (hindices.subset hi)).2
  obtain ⟨hpending, hstopped⟩ := s.outcome_ne m i
  exact ⟨hpending, hstopped, i, by omega, rfl⟩

/-- The watcher sees the first cycle begin and end, misses that the second one begins, and comes
once between the stopped frame and the end. -/
def missesOne : List Board.Step :=
  [.beginCycle 1, .changed 0, .publish .failed ⟨100, 0⟩, .changed 0, .beginCycle 2,
    .publish .stopped ⟨1200, 0⟩, .changed 0, .dropPublisher, .changed 0]

theorem missesOne_watched : 0 < everySecond.pollIntervalMs.toNat ∧
    ∃ run, run? failsThenHangs everySecond = some run ∧
      Mixed 0 ((run.updates.map (·.2)).flatMap Board.Step.parts) missesOne ∧
      .closed ∈ Board.new.heard 0 missesOne ∧
      kept (Board.new.heard 0 missesOne) =
        [⟨1, .idle, .failed, some ⟨100, 0⟩⟩, ⟨2, .idle, .stopped, some ⟨1200, 0⟩⟩] ∧
      ∃ earlier count frames,
        Board.new.heard 0 missesOne = earlier ++ List.replicate (count + 1) .closed ∧
        kept earlier = frames ++ [failsThenHangs.stoppedFrame run.calls.length] ∧
        (frames.map (·.cycle)).Pairwise (· < ·) := by
  have h : 0 < everySecond.pollIntervalMs.toNat := by decide
  obtain ⟨run, n, hrun, hcourse⟩ := run_course failsThenHangs h
  obtain ⟨same, hsame, -, hwatched⟩ := run_watched failsThenHangs h
  obtain rfl : run = same := Option.some.inj (hrun.symm.trans hsame)
  have htwo : 1 < 0 + n := (hcourse.issued 1 (Nat.zero_le 1)).mpr (by decide)
  have hthree : ¬ 2 < 0 + n := by
    intro hn
    exact absurd ((hcourse.issued 2 (Nat.zero_le 2)).mp hn) (by decide)
  obtain rfl : n = 2 := by omega
  have hparts : (run.updates.map (·.2)).flatMap Board.Step.parts =
      [.beginCycle 1, .publish .failed ⟨100, 0⟩, .beginCycle 2, .publish .stopped ⟨1200, 0⟩,
        .dropPublisher] := by
    rw [hcourse.updates]
    rfl
  have hmixed : Mixed 0 ((run.updates.map (·.2)).flatMap Board.Step.parts) missesOne := by
    rw [hparts]
    exact .other (.ask (.other (.ask (.other (.other (.ask (.other (.ask .nil))))))))
  have hclosed : .closed ∈ Board.new.heard 0 missesOne := by
    rw [show Board.new.heard 0 missesOne =
      [.frame ⟨1, .polling, .pending, none⟩, .frame ⟨1, .idle, .failed, some ⟨100, 0⟩⟩,
        .frame ⟨2, .idle, .stopped, some ⟨1200, 0⟩⟩, .closed] from rfl]
    simp
  obtain ⟨earlier, count, frames, hheard, -, hkept, hcycles, -⟩ := (hwatched _ hmixed).2 hclosed
  exact ⟨h, run, hrun, hmixed, hclosed, rfl, earlier, count, frames, hheard, hkept, hcycles⟩

end Poller

end PoolWatch
