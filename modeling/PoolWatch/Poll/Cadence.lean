/-!
# Cadence

Cycles start on a grid of fixed steps. A cycle that starts at most five milliseconds late keeps the
grid. One that starts later begins a new grid at the time it starts.
-/

namespace PoolWatch.Cadence

/-- How late a start may be and still keep the grid, in milliseconds. -/
def tolerance : Nat := 5

/-- When the start after this one is due. -/
def next (interval due start : Nat) : Nat :=
  if start ≤ due + tolerance then due + interval else start + interval

theorem due_lt_next {interval due start : Nat} (h : 0 < interval) (late : due ≤ start) :
    due < next interval due start := by
  unfold next
  split <;> omega

theorem le_next (interval due start : Nat) :
    start + interval - tolerance ≤ next interval due start := by
  unfold next tolerance
  split <;> omega

end PoolWatch.Cadence
