import PoolWatch.Poll.Cadence

/-!
# When calls start

The times at which calls start and end follow from the interval and from how long each call takes,
and from nothing else.
-/

namespace PoolWatch.Cadence

structure Slot where
  due : Nat
  start : Nat

/-- The slots of calls that take `took n` each. -/
def slot (interval : Nat) (took : Nat → Nat) : Nat → Slot
  | 0 => ⟨0, 0⟩
  | n + 1 =>
    let last := slot interval took n
    let due := next interval last.due last.start
    ⟨due, max (last.start + took n) due⟩

def due (interval : Nat) (took : Nat → Nat) (n : Nat) : Nat := (slot interval took n).due

def start (interval : Nat) (took : Nat → Nat) (n : Nat) : Nat := (slot interval took n).start

def finish (interval : Nat) (took : Nat → Nat) (n : Nat) : Nat := start interval took n + took n

variable (interval : Nat) (took : Nat → Nat) (n : Nat)

/-! ## One step -/

theorem due_succ : due interval took (n + 1) =
    next interval (due interval took n) (start interval took n) := rfl

theorem start_succ : start interval took (n + 1) =
    max (finish interval took n) (due interval took (n + 1)) := rfl

theorem due_le_start : due interval took n ≤ start interval took n := by
  cases n with
  | zero => exact Nat.le_refl 0
  | succ n =>
    rw [start_succ]
    exact Nat.le_max_right _ _

/-- No call starts before the one before has ended. -/
theorem finish_le_start_succ : finish interval took n ≤ start interval took (n + 1) := by
  rw [start_succ]
  exact Nat.le_max_left _ _

theorem due_add_le : due interval took n + interval ≤ due interval took (n + 1) := by
  have hlate := due_le_start interval took n
  rw [due_succ]
  unfold next
  split <;> omega

theorem start_add_le :
    start interval took n + interval ≤ start interval took (n + 1) + tolerance := by
  have hnext := le_next interval (due interval took n) (start interval took n)
  rw [start_succ, due_succ]
  omega

/-- A call waits for its interval and for the call before, and for nothing else. -/
theorem start_succ_le : start interval took (n + 1) ≤
    max (start interval took n + interval) (finish interval took n) := by
  have hlate := due_le_start interval took n
  rw [start_succ, due_succ]
  unfold next
  split <;> omega

/-! ## Many steps -/

theorem mul_le_due : n * interval ≤ due interval took n := by
  induction n with
  | zero => simp
  | succ n ih =>
    have hstep := due_add_le interval took n
    rw [Nat.succ_mul]
    omega

theorem mul_le_start : n * interval ≤ start interval took n :=
  Nat.le_trans (mul_le_due interval took n) (due_le_start interval took n)

variable {interval took n}

theorem start_mono {m : Nat} (h : n ≤ m) : start interval took n ≤ start interval took m := by
  induction h with
  | refl => exact Nat.le_refl _
  | @step m _ ih =>
    have hfinish := finish_le_start_succ interval took m
    exact Nat.le_trans ih (Nat.le_trans (Nat.le_add_right _ _) hfinish)

/-- As long as no call takes longer than the interval, every start is on the first grid. -/
theorem start_eq_mul (h : ∀ i < n, took i ≤ interval) : start interval took n = n * interval := by
  suffices hboth : due interval took n = n * interval ∧ start interval took n = n * interval from
    hboth.2
  induction n with
  | zero => simp [due, start, slot]
  | succ n ih =>
    obtain ⟨hdue, hstart⟩ := ih fun i hi => h i (by omega)
    have htook := h n (by omega)
    have hnext : due interval took (n + 1) = (n + 1) * interval := by
      rw [due_succ, hdue, hstart, next, if_pos (by omega), Nat.succ_mul]
    refine ⟨hnext, ?_⟩
    rw [start_succ, hnext, finish, hstart, Nat.succ_mul]
    omega

end PoolWatch.Cadence
