import Mathlib.Algebra.Order.Field.Basic
import Mathlib.Data.Rat.Cast.Order
import Mathlib.Tactic.FieldSimp
import Mathlib.Tactic.Linarith
import Mathlib.Tactic.Positivity
import Mathlib.Tactic.Ring
import PoolWatch.Number.Binary64

/-!
# How far rounding may be off

A result is off by one part in 2^53 at most, unless it is very small. It is finite as long as it
rounds to less than 2^1024.
-/

namespace PoolWatch.Binary64

variable {num den : Nat}

/-! ## To a whole number -/

theorem nearestEven_near (hden : 0 < den) :
    2 * num ≤ 2 * (nearestEven num den * den) + den ∧
      2 * (nearestEven num den * den) ≤ 2 * num + den := by
  have hsplit := Nat.div_add_mod num den
  have hrest := Nat.mod_lt num hden
  rw [Nat.mul_comm] at hsplit
  unfold nearestEven
  simp only
  split
  · omega
  split
  · rw [Nat.add_mul]
    omega
  · rcases Nat.mod_two_eq_zero_or_one (num / den) with heven | heven <;> rw [heven, Nat.add_mul] <;>
      omega

/-! ## To a rank -/

/-- How many binary places of a quotient do not fit. -/
def shiftOf (num den : Nat) : Nat := (num / den).log2 - 52

/-- What is left of a quotient in its last place. -/
def significand (num den : Nat) : Nat := nearestEven num (den <<< shiftOf num den)

theorem rankOf_eq (num den : Nat) :
    rankOf num den = shiftOf num den * 2 ^ 52 + significand num den := by
  rw [← Nat.shiftLeft_eq]
  rfl

theorem significand_near (num : Nat) (hden : 0 < den) :
    2 * num ≤ 2 * (significand num den * (den * 2 ^ shiftOf num den)) + den * 2 ^ shiftOf num den ∧
      2 * (significand num den * (den * 2 ^ shiftOf num den)) ≤
        2 * num + den * 2 ^ shiftOf num den := by
  rw [significand, Nat.shiftLeft_eq]
  exact nearestEven_near (Nat.mul_pos hden (Nat.two_pow_pos _))

theorem lt_shiftOf (num : Nat) (hden : 0 < den) : num < den * 2 ^ (53 + shiftOf num den) := by
  have hlog : (num / den).log2 + 1 ≤ 53 + shiftOf num den := by
    unfold shiftOf
    omega
  have hquotient : num / den < 2 ^ ((num / den).log2 + 1) := Nat.lt_log2_self
  have hpow : 2 ^ ((num / den).log2 + 1) ≤ 2 ^ (53 + shiftOf num den) :=
    Nat.pow_le_pow_right (by omega) hlog
  rw [Nat.mul_comm]
  exact (Nat.div_lt_iff_lt_mul hden).mp (Nat.lt_of_lt_of_le hquotient hpow)

theorem shiftOf_le (hden : 0 < den) (h : shiftOf num den ≠ 0) :
    den * 2 ^ (52 + shiftOf num den) ≤ num := by
  have hlog : 52 + shiftOf num den = (num / den).log2 := by
    unfold shiftOf at h ⊢
    omega
  have hquotient : num / den ≠ 0 := by
    intro hzero
    simp [shiftOf, hzero] at h
  rw [hlog, Nat.mul_comm]
  exact (Nat.le_div_iff_mul_le hden).mp (Nat.log2_self_le hquotient)

theorem significand_le (num : Nat) (hden : 0 < den) : significand num den ≤ 2 ^ 53 := by
  have hnear := (significand_near num hden).2
  have hlt := lt_shiftOf num hden
  have hplace : 0 < den * 2 ^ shiftOf num den := Nat.mul_pos hden (Nat.two_pow_pos _)
  rw [Nat.pow_add, Nat.mul_left_comm] at hlt
  generalize den * 2 ^ shiftOf num den = place at *
  by_contra hgt
  have := Nat.mul_le_mul_right place (Nat.lt_of_not_le hgt)
  rw [Nat.succ_mul] at this
  omega

theorem le_significand (num : Nat) (hden : 0 < den) (h : shiftOf num den ≠ 0) :
    2 ^ 52 ≤ significand num den := by
  have hnear := (significand_near num hden).1
  have hle := shiftOf_le hden h
  have hplace : 0 < den * 2 ^ shiftOf num den := Nat.mul_pos hden (Nat.two_pow_pos _)
  rw [Nat.pow_add, Nat.mul_left_comm] at hle
  generalize den * 2 ^ shiftOf num den = place at *
  by_contra hlt
  have := Nat.mul_le_mul_right place (Nat.lt_of_not_le hlt)
  rw [Nat.succ_mul] at this
  omega

theorem unitsAt_rankOf (hden : 0 < den) :
    unitsAt (rankOf num den) = significand num den * 2 ^ shiftOf num den := by
  have hle := significand_le num hden
  have hge := le_significand num hden
  rw [rankOf_eq]
  generalize significand num den = m at *
  generalize shiftOf num den = shift at *
  rw [unitsAt, Nat.one_shiftLeft, Nat.shiftRight_eq_div_pow, Nat.shiftLeft_eq]
  split
  · obtain rfl : shift = 0 := by omega
    omega
  rcases Nat.lt_or_ge m (2 ^ 52) with hm | hm
  · obtain rfl : shift = 0 := by omega
    omega
  rcases Nat.lt_or_ge m (2 ^ 53) with hm' | hm'
  · have hdiv : (shift * 2 ^ 52 + m) / 2 ^ 52 - 1 = shift := by omega
    have hmod : 2 ^ 52 + (shift * 2 ^ 52 + m) % 2 ^ 52 = m := by omega
    rw [hdiv, hmod]
  · have hdiv : (shift * 2 ^ 52 + m) / 2 ^ 52 - 1 = shift + 1 := by omega
    have hmod : (shift * 2 ^ 52 + m) % 2 ^ 52 = 0 := by omega
    obtain rfl : m = 2 ^ 53 := by omega
    rw [hdiv, hmod, Nat.pow_succ]
    omega

/-! ## Finite results -/

/-- Where the last place of the largest finite numbers stands. -/
def lastShift : Nat := 2045

theorem infinityRank_eq : infinityRank = lastShift * 2 ^ 52 + 2 ^ 53 := by decide

theorem rankOf_lt (hden : 0 < den) (h : num < den * (2 ^ lastShift * (2 ^ 53 - 1))) :
    rankOf num den < infinityRank := by
  have hle := significand_le num hden
  rw [rankOf_eq, infinityRank_eq]
  generalize lastShift = last at *
  rcases Nat.lt_trichotomy (shiftOf num den) last with hshift | hshift | hshift
  · omega
  · have hnear := (significand_near num hden).2
    have hplace : 0 < den * 2 ^ last := Nat.mul_pos hden (Nat.two_pow_pos _)
    rw [← Nat.mul_assoc] at h
    rw [hshift] at hnear ⊢
    generalize den * 2 ^ last = place at *
    have hlt : significand num den < 2 ^ 53 := by
      by_contra hge
      have := Nat.mul_le_mul_right place (Nat.le_of_not_lt hge)
      omega
    omega
  · have hhigh := @shiftOf_le num den hden (by omega)
    have hpow : 2 ^ last * 2 ^ 53 ≤ 2 ^ (52 + shiftOf num den) := by
      rw [← Nat.pow_add]
      exact Nat.pow_le_pow_right (by omega) (by omega)
    have hlow : 2 ^ last * (2 ^ 53 - 1) ≤ 2 ^ last * 2 ^ 53 :=
      Nat.mul_le_mul_left _ (Nat.sub_le _ _)
    have := Nat.mul_le_mul_left den (Nat.le_trans hlow hpow)
    omega

theorem le_rankOf (hden : 0 < den) (h : den * (2 ^ lastShift * 2 ^ 53) ≤ num) :
    infinityRank ≤ rankOf num den := by
  rw [rankOf_eq, infinityRank_eq]
  generalize lastShift = last at *
  have hshift : last + 1 ≤ shiftOf num den := by
    by_contra hlow
    have hlt := lt_shiftOf num hden
    have hpow : 2 ^ (53 + shiftOf num den) ≤ 2 ^ last * 2 ^ 53 := by
      rw [← Nat.pow_add]
      exact Nat.pow_le_pow_right (by omega) (by omega)
    have := Nat.mul_le_mul_left den hpow
    omega
  have hge := le_significand num hden (by omega)
  omega

theorem units_ofUnits? (hden : 0 < den) {x : Binary64} (hx : ofUnits? num den = some x) :
    x.units = significand num den * 2 ^ shiftOf num den := by
  unfold ofUnits? at hx
  split at hx
  · obtain rfl := Option.some.inj hx
    exact unitsAt_rankOf hden
  · simp at hx

/-! ## Results as fractions -/

/-- A unit is one half to this power. -/
def unitShift : Nat := 1074

/-- The magnitude as a fraction. -/
def size (x : Binary64) : Rat := x.units / 2 ^ unitShift

/-- The first power of two past all finite numbers. -/
def overflow : Rat := 2 ^ 1024

theorem overflow_pos : 0 < overflow := by
  unfold overflow
  positivity

theorem overflow_units : overflow * 2 ^ unitShift = 2 ^ lastShift * 2 ^ 53 := by
  rw [overflow, ← pow_add, ← pow_add]
  rfl

section

variable {v : Rat} {x : Binary64}

theorem ofUnits?_isSome (hden : 0 < den) (hv : (num : Rat) = v * (den * 2 ^ unitShift))
    (h : v * 2 ^ 53 < overflow * (2 ^ 53 - 1)) : (ofUnits? num den).isSome = true := by
  have hlt : rankOf num den < infinityRank := by
    refine rankOf_lt hden ?_
    have hden' : (0 : Rat) < den * 2 ^ unitShift := by positivity
    have hscaled := mul_lt_mul_of_pos_right h hden'
    have hlast := overflow_units
    generalize unitShift = u at *
    generalize lastShift = l at *
    have hcast : (num : Rat) < den * (2 ^ l * (2 ^ 53 - 1)) := by
      rw [hv]
      nlinarith
    have hnat : ((2 ^ 53 - 1 : Nat) : Rat) = 2 ^ 53 - 1 := by norm_num
    rw [← hnat] at hcast
    exact_mod_cast hcast
  unfold ofUnits?
  rw [dif_pos hlt]
  rfl

theorem ofUnits?_eq_none (hden : 0 < den) (hv : (num : Rat) = v * (den * 2 ^ unitShift))
    (h : overflow ≤ v) : ofUnits? num den = none := by
  have hge : ¬ rankOf num den < infinityRank := by
    refine Nat.not_lt_of_le (le_rankOf hden ?_)
    have hden' : (0 : Rat) < den * 2 ^ unitShift := by positivity
    have hscaled := mul_le_mul_of_nonneg_right h (le_of_lt hden')
    rw [← hv, mul_left_comm, overflow_units] at hscaled
    exact_mod_cast hscaled
  unfold ofUnits?
  rw [dif_neg hge]

/-- The error is half a place at most. -/
theorem size_near (hden : 0 < den) (hv : (num : Rat) = v * (den * 2 ^ unitShift))
    (hx : ofUnits? num den = some x) :
    |x.size - v| * 2 ^ unitShift ≤ 2 ^ shiftOf num den / 2 := by
  have hden' : (0 : Rat) < den := by exact_mod_cast hden
  have hunit : (0 : Rat) < 2 ^ unitShift := by positivity
  have hunits : (x.units : Rat) = x.size * 2 ^ unitShift := by
    rw [size, div_mul_cancel₀ _ (ne_of_gt hunit)]
  obtain ⟨hlow, hhigh⟩ := significand_near num hden
  rw [Nat.mul_left_comm (significand num den), ← units_ofUnits? hden hx] at hlow hhigh
  have hlow' : 2 * (num : Rat) ≤ 2 * (den * x.units) + den * 2 ^ shiftOf num den := by
    exact_mod_cast hlow
  have hhigh' : 2 * ((den : Rat) * x.units) ≤ 2 * num + den * 2 ^ shiftOf num den := by
    exact_mod_cast hhigh
  rw [hv, hunits] at hlow' hhigh'
  rw [← abs_of_pos hunit, ← abs_mul, abs_le]
  constructor <;> refine le_of_mul_le_mul_left ?_ hden' <;> linarith

theorem place_le (hden : 0 < den) (hv : (num : Rat) = v * (den * 2 ^ unitShift)) :
    2 ^ shiftOf num den * 2 ^ 52 ≤ v * 2 ^ unitShift ∨ shiftOf num den = 0 := by
  by_cases hshift : shiftOf num den = 0
  · exact Or.inr hshift
  · left
    have hden' : (0 : Rat) < den := by exact_mod_cast hden
    have hle := shiftOf_le hden hshift
    have hcast : (den : Rat) * 2 ^ (52 + shiftOf num den) ≤ num := by exact_mod_cast hle
    rw [hv, pow_add] at hcast
    refine le_of_mul_le_mul_left ?_ hden'
    linarith

/-- From 1 on, the error is one part in 2^53 at most. -/
theorem size_close (hden : 0 < den) (hv : (num : Rat) = v * (den * 2 ^ unitShift))
    (hx : ofUnits? num den = some x) (h : 1 ≤ v) : |x.size - v| * 2 ^ 53 ≤ v := by
  have hnear := size_near hden hv hx
  have hplace : (2 : Rat) ^ shiftOf num den * 2 ^ 52 ≤ v * 2 ^ unitShift := by
    rcases place_le hden hv with hplace | hshift
    · exact hplace
    · have hunit : (2 : Rat) ^ 52 ≤ 2 ^ unitShift := pow_le_pow_right₀ (by norm_num) (by decide)
      rw [hshift, pow_zero, one_mul]
      exact le_trans hunit (le_mul_of_one_le_left (by positivity) h)
  have hunit : (0 : Rat) < 2 ^ unitShift := by positivity
  refine le_of_mul_le_mul_right ?_ hunit
  linarith

theorem size_le (hden : 0 < den) (hv : (num : Rat) = v * (den * 2 ^ unitShift))
    (hx : ofUnits? num den = some x) (h : 0 ≤ v) : x.size ≤ 2 * v + 1 := by
  have hnear := le_trans (mul_le_mul_of_nonneg_right (le_abs_self _) (by positivity))
    (size_near hden hv hx)
  have hunit : (1 : Rat) ≤ 2 ^ unitShift := one_le_pow₀ (by norm_num)
  refine le_of_mul_le_mul_right ?_ (lt_of_lt_of_le one_pos hunit)
  have hvalue : 0 ≤ v * 2 ^ unitShift := mul_nonneg h (by positivity)
  rcases place_le hden hv with hplace | hshift
  · linarith
  · rw [hshift, pow_zero] at hnear
    linarith

end

/-! ## Arithmetic -/

theorem units_eq (x : Binary64) : (x.units : Rat) = x.size * 2 ^ unitShift := by
  rw [size, div_mul_cancel₀ _ (by positivity)]

theorem ofNat?_eq (n : Nat) : ofNat? n = ofUnits? (n * 2 ^ unitShift) 1 := by
  rw [← Nat.shiftLeft_eq]
  rfl

theorem mul?_eq (x y : Binary64) : x.mul? y = ofUnits? (x.units * y.units) (2 ^ unitShift) := by
  rw [← Nat.one_shiftLeft]
  rfl

theorem div?_eq (x y : Binary64) : x.div? y = ofUnits? (x.units * 2 ^ unitShift) y.units := by
  rw [← Nat.shiftLeft_eq]
  rfl

theorem size_nonneg (x : Binary64) : 0 ≤ x.size := by
  unfold size
  positivity

section

variable {n : Nat} {x y z : Binary64}

theorem ofNat?_value (n : Nat) :
    ((n * 2 ^ unitShift : Nat) : Rat) = n * ((1 : Nat) * 2 ^ unitShift) := by
  push_cast
  ring

theorem ofNat?_isSome (h : (n : Rat) * 2 ^ 53 < overflow * (2 ^ 53 - 1)) :
    (ofNat? n).isSome = true := by
  rw [ofNat?_eq]
  exact ofUnits?_isSome Nat.one_pos (ofNat?_value n) h

theorem ofNat?_close (hx : ofNat? n = some x) (h : 1 ≤ n) : |x.size - n| * 2 ^ 53 ≤ n := by
  rw [ofNat?_eq] at hx
  exact size_close Nat.one_pos (ofNat?_value n) hx (by exact_mod_cast h)

theorem mul?_value (x y : Binary64) : ((x.units * y.units : Nat) : Rat) =
    x.size * y.size * ((2 ^ unitShift : Nat) * 2 ^ unitShift) := by
  push_cast
  rw [units_eq, units_eq]
  ring

theorem mul?_isSome (h : x.size * y.size * 2 ^ 53 < overflow * (2 ^ 53 - 1)) :
    (x.mul? y).isSome = true := by
  rw [mul?_eq]
  exact ofUnits?_isSome (Nat.two_pow_pos _) (mul?_value x y) h

theorem mul?_eq_none (h : overflow ≤ x.size * y.size) : x.mul? y = none := by
  rw [mul?_eq]
  exact ofUnits?_eq_none (Nat.two_pow_pos _) (mul?_value x y) h

theorem units_pos (h : 0 < y.size) : 0 < y.units := by
  have hunits : (0 : Rat) < y.units := by
    rw [units_eq]
    exact mul_pos h (by positivity)
  exact_mod_cast hunits

theorem div?_value (h : 0 < y.size) : ((x.units * 2 ^ unitShift : Nat) : Rat) =
    x.size / y.size * (y.units * 2 ^ unitShift) := by
  push_cast
  rw [units_eq, units_eq]
  field_simp

theorem div?_isSome (hy : 0 < y.size) (h : x.size / y.size * 2 ^ 53 < overflow * (2 ^ 53 - 1)) :
    (x.div? y).isSome = true := by
  rw [div?_eq]
  exact ofUnits?_isSome (units_pos hy) (div?_value hy) h

theorem div?_le (hy : 0 < y.size) (hz : x.div? y = some z) :
    z.size ≤ 2 * (x.size / y.size) + 1 := by
  rw [div?_eq] at hz
  exact size_le (units_pos hy) (div?_value hy) hz (div_nonneg x.size_nonneg hy.le)

end

end PoolWatch.Binary64
