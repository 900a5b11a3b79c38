import PoolWatch.Proofs.Board.Steps
import PoolWatch.Proofs.Poll.Timeline

/-!
# A reader that keeps asking

The steps of one reader may come anywhere between the steps of the publisher. Frames that the reader
is too slow for are lost to it. It is given the others in their order, and the last one always.
-/

namespace PoolWatch.Board

/-! ## What may be heard -/

def Answer.frame? : Answer → Option Frame
  | .frame f => some f
  | _ => none

def framesOf (answers : List Answer) : List Frame := answers.filterMap Answer.frame?

/-- What a reader may be told that keeps asking, when these frames are new or still to come. -/
inductive Hears : List Frame → List Answer → Prop
  | nothing (news : List Frame) : Hears news []
  | frame {f : Frame} {news : List Frame} {answers : List Answer} :
    Hears news answers → Hears (f :: news) (.frame f :: answers)
  /-- Only a frame that another one follows can be missed. -/
  | missed {f g : Frame} {news : List Frame} {answers : List Answer} :
    Hears (g :: news) answers → Hears (f :: g :: news) answers
  | waiting {news : List Frame} {answers : List Answer} :
    Hears news answers → Hears news (.waiting :: answers)
  | closed (n : Nat) : Hears [] (List.replicate n .closed)

theorem Hears.ended {news : List Frame} {answers : List Answer} (h : Hears news answers)
    (hclosed : .closed ∈ answers) : ∃ earlier n,
      answers = earlier ++ List.replicate (n + 1) .closed ∧ .closed ∉ earlier ∧
      (framesOf earlier).Sublist news ∧ (framesOf earlier).getLast? = news.getLast? := by
  induction h with
  | nothing => simp at hclosed
  | @frame f news answers _ ih =>
    obtain ⟨earlier, n, rfl, hearlier, hsub, hlast⟩ := ih (by simpa using hclosed)
    refine ⟨.frame f :: earlier, n, rfl, by simpa using hearlier, hsub.cons_cons f, ?_⟩
    rw [show framesOf (.frame f :: earlier) = f :: framesOf earlier from rfl, List.getLast?_cons,
      List.getLast?_cons, hlast]
  | missed _ ih =>
    obtain ⟨earlier, n, rfl, hearlier, hsub, hlast⟩ := ih hclosed
    exact ⟨earlier, n, rfl, hearlier, hsub.cons _, by rw [hlast, List.getLast?_cons_cons]⟩
  | waiting _ ih =>
    obtain ⟨earlier, n, rfl, hearlier, hsub, hlast⟩ := ih (by simpa using hclosed)
    exact ⟨.waiting :: earlier, n, rfl, by simpa using hearlier, hsub, hlast⟩
  | closed n =>
    cases n with
    | zero => simp at hclosed
    | succ n => exact ⟨[], n, rfl, by simp, List.nil_sublist _, rfl⟩

/-! ## What is heard -/

def Step.asks (reader : Nat) : Step → Bool
  | .changed r => r == reader
  | _ => false

/-- What one reader is told by the way. -/
def heard (reader : Nat) (b : Board) : List Step → List Answer
  | [] => []
  | s :: rest =>
    let later := heard reader (b.step s).2 rest
    if s.asks reader then (b.step s).1 :: later else later

/-- The given steps in their order, and a reader that asks anywhere between. -/
inductive Mixed (reader : Nat) : List Step → List Step → Prop
  | nil : Mixed reader [] []
  | other {s : Step} {steps mixed : List Step} :
    Mixed reader steps mixed → Mixed reader (s :: steps) (s :: mixed)
  | ask {steps mixed : List Step} :
    Mixed reader steps mixed → Mixed reader steps (.changed reader :: mixed)

variable {reader seen : Nat} {b : Board} {steps mixed : List Step}

theorem step_changed (h : b.seen? reader = some seen) :
    b.step (.changed reader) = (ofChange (b.change seen), b.markSeen reader) := by
  rw [step, readerStep, h]

theorem heard_ask (h : b.seen? reader = some seen) : heard reader b (.changed reader :: mixed) =
    ofChange (b.change seen) :: heard reader (b.markSeen reader) mixed := by
  rw [heard, step_changed h, Step.asks, beq_self_eq_true, if_pos rfl]

theorem heard_other {s : Step} (h : s.asks reader = false) :
    heard reader b (s :: mixed) = heard reader (b.step s).2 mixed := by
  rw [heard, h]
  rfl

theorem not_asks_of_keeps {s : Step} (h : Keeps s) : s.asks reader = false := by
  cases s <;> first | rfl | exact h.elim

/-- A reader that has not seen the newest frame has it before it. -/
def unseen (b : Board) (seen : Nat) : List Frame := if seen < b.version then [b.frame] else []

theorem unseen_version (b : Board) : b.unseen b.version = [] := if_neg (Nat.lt_irrefl _)

theorem unseen_newer (h : seen < b.version) : b.unseen seen = [b.frame] := if_pos h

theorem unseen_all (h : ¬ seen < b.version) : b.unseen seen = [] := if_neg h

/-! ## After the end -/

theorem Mixed.only_asks (h : Mixed reader [] mixed) :
    ∃ n, mixed = List.replicate n (.changed reader) := by
  generalize hsteps : ([] : List Step) = steps at h
  induction h with
  | nil => exact ⟨0, rfl⟩
  | other _ _ => cases hsteps
  | ask _ ih =>
    obtain ⟨n, rfl⟩ := ih hsteps
    exact ⟨n + 1, rfl⟩

theorem heard_all_closed (hclosed : b.published = false) (hseen : b.seen? reader = some seen)
    (hall : ¬ seen < b.version) (n : Nat) :
    heard reader b (List.replicate n (.changed reader)) = List.replicate n .closed := by
  induction n generalizing b seen with
  | zero => rfl
  | succ n ih =>
    rw [List.replicate_succ, heard_ask hseen, ih (b := b.markSeen reader) hclosed
      (seen?_markSeen_self hseen) (Nat.lt_irrefl _), change, if_neg hall, hclosed]
    rfl

theorem hears_closed (hclosed : b.published = false) (hseen : b.seen? reader = some seen)
    (n : Nat) : Hears (b.unseen seen) (heard reader b (List.replicate n (.changed reader))) := by
  by_cases hnew : seen < b.version
  · rw [unseen_newer hnew]
    cases n with
    | zero => exact .nothing _
    | succ n =>
      rw [List.replicate_succ, heard_ask hseen, change, if_pos hnew, heard_all_closed
        (b := b.markSeen reader) hclosed (seen?_markSeen_self hseen) (Nat.lt_irrefl _)]
      exact .frame (.closed n)
  · rw [unseen_all hnew, heard_all_closed hclosed hseen hnew]
    exact .closed n

/-! ## Until the end -/

theorem step_keeps {s : Step} (h : Keeps s) (hopen : b.published = true) :
    (b.step s).2 = b.replace (s.follow b.frame) := by
  cases s <;> first | exact h.elim | simp [step, publisherStep, hopen, Step.follow]

theorem framesFrom_congr {c : Board} (hframe : b.frame = c.frame)
    (hpublished : b.published = c.published) (updates : List (Nat × Step)) :
    b.framesFrom updates = c.framesFrom updates := by
  induction updates generalizing b c with
  | nil => rfl
  | cons u updates ih =>
    have hnext : (b.step u.2).2.frame = (c.step u.2).2.frame := by
      rw [step_frame, step_frame, hframe, hpublished]
    rw [framesFrom, framesFrom, hnext, ih hnext]
    rw [step_published, step_published, hpublished]

/-- Whatever the reader has not seen by now it is told later, or something newer in its place. -/
theorem hears_mixed {updates : List (Nat × Step)} (hkeeps : ∀ u ∈ updates, Keeps u.2)
    (hopen : b.published = true) (hseen : b.seen? reader = some seen) (hle : seen ≤ b.version)
    (h : Mixed reader (updates.map (·.2) ++ [.dropPublisher]) mixed) :
    Hears (b.unseen seen ++ (b.framesFrom updates).map (·.2)) (heard reader b mixed) := by
  generalize hsteps : updates.map (·.2) ++ [.dropPublisher] = steps at h
  -- A frame stays before the reader until it asks or another frame takes its place.
  induction h generalizing b seen updates with
  | nil => simp at hsteps
  | @other s steps mixed hmixed ih =>
    cases updates with
    | nil =>
      obtain ⟨rfl, rfl⟩ := List.cons.inj hsteps
      obtain ⟨n, rfl⟩ := hmixed.only_asks
      have hstep : (b.step .dropPublisher).2 = b.close := by simp [step, publisherStep, hopen]
      rw [heard_other rfl, hstep, framesFrom, List.map_nil, List.append_nil]
      exact hears_closed (b := b.close) rfl hseen n
    | cons u updates =>
      obtain ⟨rfl, rfl⟩ := List.cons.inj hsteps
      obtain ⟨hu, hupdates⟩ := List.forall_mem_cons.mp hkeeps
      have hstep := step_keeps hu hopen
      have hnext := ih (b := (b.step u.2).2) hupdates (by rw [hstep]; exact hopen)
        (by rw [hstep]; exact hseen) (by rw [hstep]; exact Nat.le_succ_of_le hle) rfl
      rw [unseen_newer (by rw [hstep]; exact Nat.lt_succ_of_le hle)] at hnext
      rw [heard_other (not_asks_of_keeps hu), framesFrom, List.map_cons]
      by_cases hnew : seen < b.version
      · rw [unseen_newer hnew]
        exact .missed hnext
      · rw [unseen_all hnew]
        exact hnext
  | @ask steps mixed hmixed ih =>
    have hnext := ih (b := b.markSeen reader) hkeeps hopen (seen?_markSeen_self hseen)
      (Nat.le_refl _) hsteps
    have hsame : (b.markSeen reader).framesFrom updates = b.framesFrom updates :=
      framesFrom_congr (b := b.markSeen reader) (c := b) rfl rfl updates
    rw [show (b.markSeen reader).unseen b.version = [] from unseen_version b, hsame] at hnext
    rw [heard_ask hseen, change]
    by_cases hnew : seen < b.version
    · rw [unseen_newer hnew, if_pos hnew]
      exact .frame hnext
    · rw [unseen_all hnew, if_neg hnew, hopen]
      exact .waiting hnext

/-! ## Whoever keeps asking comes to the end -/

theorem heard_append (b : Board) (xs ys : List Step) :
    heard reader b (xs ++ ys) = heard reader b xs ++ heard reader (b.after xs) ys := by
  induction xs generalizing b with
  | nil => rfl
  | cons s rest ih =>
    rw [List.cons_append, heard, heard, ih]
    split <;> rfl

theorem after_published (b : Board) (steps : List Step) :
    (b.after steps).published = (b.published && !steps.any Step.ends) := by
  induction steps generalizing b with
  | nil => simp [after]
  | cons s rest ih =>
    have hrest := ih (b.step s).2
    rw [step_published, Bool.and_assoc, ← Bool.not_or, ← List.any_cons] at hrest
    exact hrest

theorem Mixed.mem (h : Mixed reader steps mixed) {s : Step} (hs : s ∈ steps) : s ∈ mixed := by
  induction h with
  | nil => exact hs
  | other _ ih =>
    rcases List.mem_cons.mp hs with rfl | hs
    · exact List.mem_cons_self
    · exact List.mem_cons_of_mem _ (ih hs)
  | ask _ ih => exact List.mem_cons_of_mem _ (ih hs)

theorem seen?_publisher {s : Step} (h : (s.replaces || s.ends) = true) :
    (b.step s).2.seen? reader = b.seen? reader := by
  cases s <;> simp [Step.replaces, Step.ends] at h <;>
    cases hp : b.published <;> simp [step, publisherStep, hp, seen?_replace, seen?_close]

theorem Mixed.there (h : Mixed reader steps mixed)
    (hsteps : ∀ s ∈ steps, (s.replaces || s.ends) = true) (hseen : b.seen? reader = some seen) :
    ∃ now, (b.after mixed).seen? reader = some now := by
  induction h generalizing b seen with
  | nil => exact ⟨seen, hseen⟩
  | other _ ih =>
    obtain ⟨hs, hrest⟩ := List.forall_mem_cons.mp hsteps
    exact ih hrest ((seen?_publisher hs).trans hseen)
  | ask _ ih =>
    have hmarked : (b.step (.changed reader)).2.seen? reader = some b.version := by
      rw [step_changed hseen, seen?_markSeen_self hseen]
    exact ih hsteps hmarked

theorem closed_mem_heard (hclosed : b.published = false) (hseen : b.seen? reader = some seen) :
    .closed ∈ heard reader b [.changed reader, .changed reader] := by
  have hlast := heard_all_closed (b := b.markSeen reader) hclosed (seen?_markSeen_self hseen)
    (Nat.lt_irrefl _) 1
  rw [heard_ask hseen, show [Step.changed reader] = List.replicate 1 (.changed reader) from rfl,
    hlast]
  simp

end PoolWatch.Board
