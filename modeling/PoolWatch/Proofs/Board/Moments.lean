import PoolWatch.Proofs.Board.Steps

/-!
# Moments of a history

A history of a board is a list of steps. Moment `i` is when the first `i` of them have been made.
What a reader has seen is told by a moment too: all that was published before it. The versions that
the board keeps are the same thing in other words, as they count what has been published.
-/

namespace PoolWatch.Board

variable (steps : List Step)

/-! ## Moments -/

def reached (i : Nat) : Board := Board.new.after (steps.take i)

/-- What step number `i` is answered. -/
def told (i : Nat) : Option Answer := (Board.new.answers steps)[i]?

/-- The publisher has gone by this moment. -/
def gone (i : Nat) : Bool := (steps.take i).any Step.ends

/-- Step number `i` replaces the frame. Nothing does once the publisher has gone. -/
def updated (i : Nat) : Bool := steps[i]?.any Step.replaces && !gone steps i

/-- Something has been published between two moments. -/
def News (since i : Nat) : Prop := ∃ u, since ≤ u ∧ u < i ∧ updated steps u = true

/-- What the publisher has put up last. -/
def newest : Nat → Frame
  | 0 => .initial
  | i + 1 =>
    if gone steps i then newest i
    else match steps[i]? with
      | some s => s.follow (newest i)
      | none => newest i

/-- The moment up to which a reader has seen everything: when it came, or what its original had seen
then, or when it was last given a frame. There is none without such a reader. -/
def seenPoint? : Nat → Nat → Option Nat
  | 0 => fun reader => if reader = 0 then some 0 else none
  | i + 1 => fun reader =>
    match steps[i]?, told steps i with
    | some s, some answer => seenAfter i (seenPoint? i) reader s answer
    | _, _ => seenPoint? i reader

variable {steps}

/-! ## One more step -/

theorem answers_getElem? (b : Board) (i : Nat) : (b.answers steps)[i]? =
    steps[i]?.map fun s => ((b.after (steps.take i)).step s).1 := by
  induction steps generalizing b i with
  | nil => rfl
  | cons s rest ih =>
    cases i with
    | zero => rfl
    | succ i => exact ih (b.step s).2 i

theorem told_eq {i : Nat} {s : Step} (h : steps[i]? = some s) :
    told steps i = some ((reached steps i).step s).1 := by
  rw [told, answers_getElem?, h]
  rfl

theorem reached_succ {i : Nat} {s : Step} (h : steps[i]? = some s) :
    reached steps (i + 1) = ((reached steps i).step s).2 := by
  rw [reached, List.take_add_one, h]
  exact List.foldl_append

theorem reached_past {i : Nat} (h : steps[i]? = none) :
    reached steps (i + 1) = reached steps i := by
  rw [reached, reached, List.take_add_one, h, Option.toList_none, List.append_nil]

theorem gone_succ (i : Nat) : gone steps (i + 1) = (gone steps i || steps[i]?.any Step.ends) := by
  cases h : steps[i]? <;> simp [gone, List.take_add_one, h]

theorem gone_mono {i j : Nat} (hij : i ≤ j) (h : gone steps i = true) : gone steps j = true := by
  induction hij with
  | refl => exact h
  | step _ ih => rw [gone_succ, ih, Bool.true_or]

theorem reached_published (i : Nat) : (reached steps i).published = !gone steps i := by
  induction i with
  | zero => rfl
  | succ i ih =>
    rw [gone_succ, Bool.not_or, ← ih]
    cases h : steps[i]? with
    | none => rw [reached_past h, Option.any_none, Bool.not_false, Bool.and_true]
    | some s => rw [reached_succ h, step_published, Option.any_some]

theorem reached_frame (i : Nat) : (reached steps i).frame = newest steps i := by
  induction i with
  | zero => rfl
  | succ i ih =>
    rw [newest]
    cases h : steps[i]? with
    | none => rw [reached_past h, ih, ite_self]
    | some s =>
      rw [reached_succ h, step_frame, reached_published, ih]
      cases gone steps i <;> rfl

/-! ## Versions count updates -/

theorem reached_version_succ (i : Nat) : (reached steps (i + 1)).version =
    (reached steps i).version + if updated steps i then 1 else 0 := by
  rw [updated]
  cases h : steps[i]? with
  | none => rw [reached_past h]; rfl
  | some s =>
    rw [reached_succ h, step_version, reached_published, Option.any_some, Bool.and_comm]
    split <;> rfl

theorem reached_version_mono {i j : Nat} (h : i ≤ j) :
    (reached steps i).version ≤ (reached steps j).version := by
  induction h with
  | refl => exact Nat.le_refl _
  | step _ ih =>
    rw [reached_version_succ]
    omega

theorem reached_version_lt {since i : Nat} (h : since ≤ i) :
    (reached steps since).version < (reached steps i).version ↔ News steps since i := by
  induction h with
  | refl =>
    refine iff_of_false (Nat.lt_irrefl _) ?_
    rintro ⟨u, hsince, hu, -⟩
    omega
  | @step i hi ih =>
    have hmono : (reached steps since).version ≤ (reached steps i).version :=
      reached_version_mono hi
    rw [reached_version_succ]
    constructor
    · intro hlt
      by_cases hlast : updated steps i = true
      · exact ⟨i, hi, Nat.lt_succ_self i, hlast⟩
      · rw [if_neg hlast, Nat.add_zero] at hlt
        obtain ⟨u, hsince, hu, hupdated⟩ := ih.mp hlt
        exact ⟨u, hsince, by omega, hupdated⟩
    · rintro ⟨u, hsince, hu, hupdated⟩
      rcases Nat.eq_or_lt_of_le (Nat.le_of_lt_succ hu) with rfl | hu
      · rw [if_pos hupdated]
        omega
      · have hlt := ih.mpr ⟨u, hsince, hu, hupdated⟩
        omega

/-! ## What readers have seen -/

theorem seenPoint?_succ {i : Nat} {s : Step} (h : steps[i]? = some s) (reader : Nat) :
    seenPoint? steps (i + 1) reader =
      seenAfter i (seenPoint? steps i) reader s ((reached steps i).step s).1 := by
  rw [seenPoint?, h, told_eq h]

theorem seenPoint?_past {i : Nat} (h : steps[i]? = none) (reader : Nat) :
    seenPoint? steps (i + 1) reader = seenPoint? steps i reader := by
  rw [seenPoint?, h]

theorem seenAfter_cases {α : Type} {now : α} {seen : Nat → Option α} {reader : Nat} {s : Step}
    {a : Answer} {x : α} (h : seenAfter now seen reader s a = some x) :
    x = now ∨ ∃ r, seen r = some x := by
  cases s <;> cases a <;> simp only [seenAfter] at h <;> grind

theorem seenPoint?_le {i reader since : Nat} (h : seenPoint? steps i reader = some since) :
    since ≤ i := by
  induction i generalizing reader with
  | zero =>
    rw [seenPoint?] at h
    grind
  | succ i ih =>
    cases hs : steps[i]? with
    | none =>
      rw [seenPoint?_past hs] at h
      exact Nat.le_succ_of_le (ih h)
    | some s =>
      rw [seenPoint?_succ hs] at h
      rcases seenAfter_cases h with rfl | ⟨r, hr⟩
      · exact Nat.le_succ _
      · exact Nat.le_succ_of_le (ih hr)

theorem reached_seen (i reader : Nat) : (reached steps i).seen? reader =
    (seenPoint? steps i reader).map fun since => (reached steps since).version := by
  induction i generalizing reader with
  | zero =>
    rw [seenPoint?]
    cases reader <;> rfl
  | succ i ih =>
    cases hs : steps[i]? with
    | none => rw [reached_past hs, seenPoint?_past hs, ih]
    | some s =>
      have hbound : (reached steps i).SeenBound := by
        intro r seen hr
        rw [ih, Option.map_eq_some_iff] at hr
        obtain ⟨since, hsince, rfl⟩ := hr
        exact reached_version_mono (seenPoint?_le hsince)
      rw [reached_succ hs, seenPoint?_succ hs, seen?_step hbound, seenAfter_map]
      congr 1
      exact funext ih

theorem reached_seen_some {i reader since : Nat} (h : seenPoint? steps i reader = some since) :
    (reached steps i).seen? reader = some (reached steps since).version := by
  rw [reached_seen, h]
  rfl

end PoolWatch.Board
