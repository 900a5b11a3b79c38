import PoolWatch.Board

/-!
# What one step does to a board

The publisher replaces the frame until it goes away. Readers change nothing but what they have seen
themselves.
-/

namespace PoolWatch.Board

/-! ## Kinds of steps -/

/-- The publisher puts up a new frame. -/
def Step.replaces : Step → Bool
  | .beginCycle _ | .publish _ _ | .shutdown _ => true
  | _ => false

/-- The publisher goes away. -/
def Step.ends : Step → Bool
  | .shutdown _ | .dropPublisher => true
  | _ => false

/-- The frame after a step, if there is a publisher. -/
def Step.follow (f : Frame) : Step → Frame
  | .beginCycle n => f.beginCycle n
  | .publish model time => f.publish model time
  | .shutdown time => f.publish .stopped time
  | _ => f

theorem Step.follow_of_not_replaces {s : Step} (h : s.replaces = false) (f : Frame) :
    s.follow f = f := by
  cases s <;> first | rfl | cases h

/-! ## The frame and the publisher -/

variable (b : Board) (s : Step)

theorem step_published : (b.step s).2.published = (b.published && !s.ends) := by
  cases s <;> simp only [step, publisherStep, readerStep, Step.ends] <;> split <;>
    simp_all [join, leave, markSeen, replace, close]

theorem step_frame :
    (b.step s).2.frame = if b.published then s.follow b.frame else b.frame := by
  cases s <;> simp only [step, publisherStep, readerStep, Step.follow] <;> split <;>
    simp_all [join, leave, markSeen, replace, close]

theorem step_version :
    (b.step s).2.version = if b.published && s.replaces then b.version + 1 else b.version := by
  cases s <;> simp only [step, publisherStep, readerStep, Step.replaces] <;> split <;>
    simp_all [join, leave, markSeen, replace, close]

theorem after_of_reads {steps : List Step}
    (h : ∀ s ∈ steps, s.replaces = false ∧ s.ends = false) (b : Board) :
    (b.after steps).frame = b.frame ∧ (b.after steps).published = b.published := by
  induction steps generalizing b with
  | nil => exact ⟨rfl, rfl⟩
  | cons s rest ih =>
    obtain ⟨hreplaces, hends⟩ := h s List.mem_cons_self
    obtain ⟨hframe, hpublished⟩ := ih (fun t ht => h t (List.mem_cons_of_mem s ht)) (b.step s).2
    rw [step_frame, Step.follow_of_not_replaces hreplaces, ite_self] at hframe
    rw [step_published, hends, Bool.not_false, Bool.and_true] at hpublished
    exact ⟨hframe, hpublished⟩

/-! ## What readers have seen -/

theorem seen?_lt {b : Board} {reader seen : Nat} (h : b.seen? reader = some seen) :
    reader < b.readers.length := by
  rw [seen?, Option.join_eq_some_iff] at h
  exact (List.getElem?_eq_some_iff.mp h).1

theorem seen?_join (b : Board) (seen reader : Nat) : (b.join seen).seen? reader =
    if reader = b.readers.length then some seen else b.seen? reader := by
  rw [seen?, join]
  by_cases h : reader = b.readers.length
  · simp [h]
  · rw [if_neg h, seen?, List.getElem?_append]
    split
    · rfl
    · rw [List.getElem?_eq_none (by simp; omega), List.getElem?_eq_none (by omega)]

theorem seen?_leave (b : Board) (leaving reader : Nat) : (b.leave leaving).seen? reader =
    if reader = leaving then none else b.seen? reader := by
  rw [seen?, leave, List.getElem?_set]
  by_cases h : reader = leaving
  · subst h
    rw [if_pos rfl, if_pos rfl]
    split <;> rfl
  · rw [if_neg (Ne.symm h), if_neg h, seen?]

theorem seen?_markSeen {b : Board} {asking seen : Nat} (hasking : b.seen? asking = some seen)
    (reader : Nat) : (b.markSeen asking).seen? reader =
      if reader = asking then some b.version else b.seen? reader := by
  rw [seen?, markSeen, List.getElem?_set]
  by_cases h : reader = asking
  · subst h
    rw [if_pos rfl, if_pos rfl, if_pos (seen?_lt hasking)]
    rfl
  · rw [if_neg (Ne.symm h), if_neg h, seen?]

theorem seen?_markSeen_self {b : Board} {reader seen : Nat} (h : b.seen? reader = some seen) :
    (b.markSeen reader).seen? reader = some b.version := by
  rw [seen?_markSeen h, if_pos rfl]

theorem seen?_replace (b : Board) (f : Frame) (reader : Nat) :
    (b.replace f).seen? reader = b.seen? reader := rfl

theorem seen?_close (b : Board) (reader : Nat) : b.close.seen? reader = b.seen? reader := rfl

/-- No reader has seen what has not been published yet. -/
def SeenBound (b : Board) : Prop := ∀ reader seen, b.seen? reader = some seen → seen ≤ b.version

/-- What a reader has seen after a step, from how the step was answered. `now` stands for all that
has been published. A newcomer has seen that, or what its original has seen, and so has a reader who
is given a frame. -/
def seenAfter {α : Type} (now : α) (seen : Nat → Option α) (reader : Nat) :
    Step → Answer → Option α
  | .subscribe, .reader new => if reader = new then some now else seen reader
  | .clone original, .reader new => if reader = new then seen original else seen reader
  | .changed asking, .frame _ => if reader = asking then some now else seen reader
  | .dropReader leaving, _ => if reader = leaving then none else seen reader
  | _, _ => seen reader

theorem seenAfter_map {α β : Type} (f : α → β) (now : α) (seen : Nat → Option α) (reader : Nat)
    (s : Step) (a : Answer) : (seenAfter now seen reader s a).map f =
      seenAfter (f now) (fun r => (seen r).map f) reader s a := by
  cases s <;> cases a <;> simp only [seenAfter] <;> split <;> rfl

theorem seen?_step {b : Board} (h : b.SeenBound) (s : Step) (reader : Nat) :
    (b.step s).2.seen? reader = seenAfter b.version b.seen? reader s (b.step s).1 := by
  cases s with
  | subscribe =>
    cases hp : b.published <;> simp [step, publisherStep, hp, seen?_join, seenAfter]
  | clone original =>
    cases hs : b.seen? original <;> simp [step, readerStep, hs, seen?_join, seenAfter]
  | changed asking =>
    cases hs : b.seen? asking with
    | none => simp [step, readerStep, hs, seenAfter]
    | some seen =>
      simp only [step, readerStep, hs, change, seen?_markSeen hs]
      have hle := h asking seen hs
      by_cases hlt : seen < b.version
      · simp [hlt, ofChange, seenAfter]
      · -- Nothing is new to the reader, so it had seen all of it before.
        have hsame : seen = b.version := by omega
        have hanswer : seenAfter b.version b.seen? reader (.changed asking)
            (ofChange (if b.published = true then .waiting else .closed)) = b.seen? reader := by
          split <;> rfl
        rw [if_neg hlt, hanswer]
        split
        · subst hsame; simp_all
        · rfl
  | dropReader leaving =>
    cases hs : b.seen? leaving with
    | none =>
      simp only [step, readerStep, hs, seenAfter]
      split
      · simp_all
      · rfl
    | some seen => simp [step, readerStep, hs, seen?_leave, seenAfter]
  | beginCycle n | publish model time | shutdown time | dropPublisher =>
    cases hp : b.published <;> simp [step, publisherStep, hp, seen?_replace, seen?_close, seenAfter]
  | current r =>
    cases hs : b.seen? r <;> simp [step, readerStep, hs, seenAfter]

/-! ## Newcomers -/

theorem readers_step (b : Board) (s : Step) :
    b.readers.length ≤ (b.step s).2.readers.length := by
  cases s <;> simp only [step, publisherStep, readerStep] <;> split <;>
    simp [join, leave, markSeen, replace, close]

/-- A newcomer is named by a number that nobody has had. -/
theorem reader_step {b : Board} {s : Step} {new : Nat} (h : (b.step s).1 = .reader new) :
    new = b.readers.length := by
  cases s with
  | subscribe =>
    cases hp : b.published <;> simp_all [step, publisherStep]
  | clone original =>
    cases hs : b.seen? original <;> simp_all [step, readerStep]
  | changed asking =>
    cases hs : b.seen? asking with
    | none => simp [step, readerStep, hs] at h
    | some seen =>
      simp only [step, readerStep, hs] at h
      cases hc : b.change seen <;> simp [hc, ofChange] at h
  | beginCycle n | publish model time | shutdown time | dropPublisher =>
    cases hp : b.published <;> simp [step, publisherStep, hp] at h
  | current r | dropReader r =>
    cases hs : b.seen? r <;> simp [step, readerStep, hs] at h

end PoolWatch.Board
