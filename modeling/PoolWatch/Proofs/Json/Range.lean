import PoolWatch.Proofs.Json.Numerals
import PoolWatch.Proofs.Number.Rounding

/-!
# Which numerals are in range

Dropped digits and rounding let the number that is read be off by less than one part in 2^50. So
every numeral that is so much below 2^1024 is in range, and none that is so much above. A power that
no signed 32-bit word holds is never computed with, so nothing is said of it here.
-/

namespace PoolWatch.Json

open Binary64

/-! ## Powers of ten -/

theorem tenTo_lt {power : Nat} (h : power ≤ 308) :
    (10 : Rat) ^ power * 2 ^ 53 < overflow * (2 ^ 53 - 1) := by
  have hmono : (10 : Rat) ^ power ≤ 10 ^ 308 := pow_le_pow_right₀ (by norm_num) h
  have hnat : 10 ^ 308 * 2 ^ 53 < 2 ^ 1024 * (2 ^ 53 - 1) := by decide +kernel
  have hlast : (10 : Rat) ^ 308 * 2 ^ 53 < overflow * (2 ^ 53 - 1 : Nat) := by
    unfold overflow
    exact_mod_cast hnat
  have hplace : ((2 ^ 53 - 1 : Nat) : Rat) = 2 ^ 53 - 1 := by norm_num
  rw [hplace] at hlast
  exact lt_of_le_of_lt (mul_le_mul_of_nonneg_right hmono (by positivity)) hlast

theorem lt_tenTo {power : Nat} (h : 308 < power) : overflow * 2 < (10 : Rat) ^ power := by
  have hmono : (10 : Rat) ^ 309 ≤ 10 ^ power := pow_le_pow_right₀ (by norm_num) h
  have hnat : 2 ^ 1024 * 2 < 10 ^ 309 := by decide +kernel
  have hfirst : overflow * 2 < (10 : Rat) ^ 309 := by
    unfold overflow
    exact_mod_cast hnat
  exact lt_of_lt_of_le hfirst hmono

theorem tenTo?_close {power : Nat} (h : power ≤ 308) :
    ∃ y, tenTo? power = some y ∧ |y.size - 10 ^ power| * 2 ^ 53 ≤ 10 ^ power := by
  have hcast : ((Nat.pow 10 power : Nat) : Rat) = 10 ^ power := Nat.cast_pow 10 power
  have hsome : (tenTo? power).isSome = true := ofNat?_isSome (by rw [hcast]; exact tenTo_lt h)
  obtain ⟨y, hy⟩ := Option.isSome_iff_exists.mp hsome
  have hclose := ofNat?_close hy (Nat.one_le_pow _ _ (by omega))
  rw [hcast] at hclose
  exact ⟨y, hy, hclose⟩

theorem le_overflow {power : Nat} (h : power ≤ 1024) : (2 : Rat) ^ power ≤ overflow :=
  pow_le_pow_right₀ (by norm_num) h

/-! ## Scaling down -/

theorem div_tenTo? {power : Nat} (h : power ≤ 308) {x : Binary64} (hx : x.size ≤ 2 ^ 65) :
    ∃ y, (tenTo? power).bind (x.div? ·) = some y ∧ y.size ≤ 4 * x.size / 10 ^ power + 1 := by
  obtain ⟨ten, hten, hclose⟩ := tenTo?_close h
  have hone : (1 : Rat) ≤ 10 ^ power := one_le_pow₀ (by norm_num)
  have hpos : (0 : Rat) < 10 ^ power := by positivity
  have hhalf : (10 : Rat) ^ power / 2 ≤ ten.size := by
    have hlow := neg_abs_le (ten.size - 10 ^ power)
    linarith
  have hquotient : x.size / ten.size ≤ 2 * x.size / 10 ^ power := by
    rw [div_le_div_iff₀ (by linarith) hpos]
    have := mul_le_mul_of_nonneg_left hhalf x.size_nonneg
    linarith
  have hsmall : 2 * x.size / 10 ^ power ≤ 2 ^ 66 := by
    rw [div_le_iff₀ hpos]
    have := mul_le_mul_of_nonneg_left hone (show (0 : Rat) ≤ 2 ^ 66 by positivity)
    linarith
  have hsome : (x.div? ten).isSome = true := by
    refine div?_isSome (by linarith) ?_
    have hlarge := le_overflow (show 67 ≤ 1024 by omega)
    linarith
  obtain ⟨y, hy⟩ := Option.isSome_iff_exists.mp hsome
  have hle := div?_le (show 0 < ten.size by linarith) hy
  refine ⟨y, by rw [hten]; exact hy, ?_⟩
  calc y.size ≤ 2 * (x.size / ten.size) + 1 := hle
    _ ≤ 2 * (2 * x.size / 10 ^ power) + 1 := by linarith
    _ = 4 * x.size / 10 ^ power + 1 := by ring

theorem shrink_isSome (steps : Nat) {x : Binary64} (hx : x.size ≤ 2 ^ 65) :
    ∃ y, shrink steps x = some y ∧ y.size ≤ 2 ^ 65 := by
  induction steps generalizing x with
  | zero => exact ⟨x, rfl, hx⟩
  | succ steps ih =>
    rw [shrink]
    split
    · exact ⟨x, rfl, hx⟩
    · obtain ⟨y, hy, hle⟩ := div_tenTo? (Nat.le_refl 308) hx
      rw [hy]
      refine ih (le_trans hle ?_)
      have hten : (10 : Rat) ≤ 10 ^ 308 := le_self_pow₀ (by norm_num) (by omega)
      generalize (10 : Rat) ^ 308 = ten at *
      have hquotient : 4 * x.size / ten ≤ 2 ^ 64 := by
        rw [div_le_iff₀ (by linarith)]
        have := mul_le_mul_of_nonneg_left hten (show (0 : Rat) ≤ 2 ^ 64 by positivity)
        linarith
      linarith

theorem scaleDown_isSome (power : Nat) {x : Binary64} (hx : x.size ≤ 2 ^ 65) :
    (scaleDown x power).isSome = true := by
  obtain ⟨y, hy, hle⟩ := shrink_isSome ((power - 1) / 308) hx
  rw [scaleDown]
  simp only [hy]
  split
  · rfl
  · obtain ⟨z, hz, -⟩ := @div_tenTo? (power - 308 * ((power - 1) / 308)) (by omega) y hle
    rw [hz]
    rfl

/-! ## Scaling -/

theorem size_eq_zero {x : Binary64} (h : x.isZero = true) : x.size = 0 := by
  have hrank : x.rank = 0 := by simpa [isZero] using h
  simp [size, units, unitsAt, hrank]

theorem ofNat?_word {n : Nat} (h : n < 1 <<< 64) : ∃ x, ofNat? n = some x ∧
    |x.size - n| * 2 ^ 53 ≤ n ∧ (x.isZero = true ↔ n = 0) := by
  rcases Nat.eq_zero_or_pos n with rfl | hn
  · refine ⟨zero, by unfold ofNat? ofUnits?; rfl, ?_, by simp [zero, isZero]⟩
    simp [size_eq_zero (show zero.isZero = true from rfl)]
  · have hword : (n : Rat) < 2 ^ 64 := by exact_mod_cast h
    have hlarge := le_overflow (show 67 ≤ 1024 by omega)
    obtain ⟨x, hx⟩ := Option.isSome_iff_exists.mp
      (ofNat?_isSome (show (n : Rat) * 2 ^ 53 < overflow * (2 ^ 53 - 1) by linarith))
    have hclose := ofNat?_close hx hn
    refine ⟨x, hx, hclose, fun hzero => ?_, fun hzero => by omega⟩
    have hpos : (0 : Rat) < n := by exact_mod_cast hn
    rw [size_eq_zero hzero, zero_sub, abs_neg, abs_of_pos hpos] at hclose
    linarith

theorem product_le {a b x y : Rat} (ha : 0 ≤ a) (hb : 0 ≤ b) (hx : |x - a| * 2 ^ 53 ≤ a)
    (hy : |y - b| * 2 ^ 53 ≤ b) : a * b * (2 ^ 53 - 1) ^ 2 ≤ x * y * 2 ^ 106 ∧
      x * y * 2 ^ 106 ≤ a * b * (2 ^ 53 + 1) ^ 2 := by
  have hxlow := neg_abs_le (x - a)
  have hxhigh := le_abs_self (x - a)
  have hylow := neg_abs_le (y - b)
  have hyhigh := le_abs_self (y - b)
  constructor
  · calc a * b * (2 ^ 53 - 1) ^ 2 = a * (2 ^ 53 - 1) * (b * (2 ^ 53 - 1)) := by ring
      _ ≤ x * 2 ^ 53 * (y * 2 ^ 53) :=
        mul_le_mul (by linarith) (by linarith) (by positivity) (by linarith)
      _ = x * y * 2 ^ 106 := by ring
  · calc x * y * 2 ^ 106 = x * 2 ^ 53 * (y * 2 ^ 53) := by ring
      _ ≤ a * (2 ^ 53 + 1) * (b * (2 ^ 53 + 1)) :=
        mul_le_mul (by linarith) (by linarith) (by linarith) (by positivity)
      _ = a * b * (2 ^ 53 + 1) ^ 2 := by ring

theorem scaleUp_isSome {d power : Nat} {x : Binary64} (hx : |x.size - d| * 2 ^ 53 ≤ d)
    (hzero : x.isZero = true ↔ d = 0)
    (h : (d : Rat) * 10 ^ power * (2 ^ 51 + 1) ≤ overflow * 2 ^ 51) :
    (scaleUp x power).isSome = true := by
  unfold scaleUp
  split
  · rename_i hpower
    obtain ⟨ten, hten, hclose⟩ := tenTo?_close hpower
    obtain ⟨-, hproduct⟩ := product_le (by positivity) (by positivity) hx hclose
    have hover := overflow_pos
    rw [hten]
    exact mul?_isSome (by linarith)
  · rename_i hpower
    have hd : d = 0 := by
      by_contra hd
      have hone : (1 : Rat) ≤ d := by exact_mod_cast Nat.pos_of_ne_zero hd
      have hover := overflow_pos
      have hlarge := lt_tenTo (Nat.lt_of_not_le hpower)
      have := le_mul_of_one_le_left (show (0 : Rat) ≤ 10 ^ power by positivity) hone
      linarith
    rw [if_pos (hzero.mpr hd)]
    rfl

theorem scaleUp_eq_none {d power : Nat} {x : Binary64} (hx : |x.size - d| * 2 ^ 53 ≤ d)
    (hzero : x.isZero = true ↔ d = 0)
    (h : overflow * 2 ^ 51 ≤ (d : Rat) * 10 ^ power * (2 ^ 51 - 1)) : scaleUp x power = none := by
  unfold scaleUp
  split
  · rename_i hpower
    obtain ⟨ten, hten, hclose⟩ := tenTo?_close hpower
    obtain ⟨hproduct, -⟩ := product_le (by positivity) (by positivity) hx hclose
    have hover := overflow_pos
    rw [hten]
    exact mul?_eq_none (by linarith)
  · have hd : d ≠ 0 := by
      rintro rfl
      have hover := overflow_pos
      norm_num at h
      linarith
    rw [if_neg (fun hz => hd (hzero.mp hz))]

theorem scaled?_eq (negative : Bool) {d : Nat} {x : Binary64} (hx : ofNat? d = some x) (e : Int) :
    scaled? negative d e = (if e ≥ 0 then scaleUp x e.toNat else scaleDown x (-e).toNat).map
      fun y => .real (y.withSign negative) := by
  rw [scaled?, hx, Option.map_eq_bind]
  split <;> rfl

theorem scaled?_isSome (negative : Bool) {d : Nat} {e : Int} (hd : d < 1 <<< 64)
    (h : (d : Rat) * 10 ^ e * (2 ^ 51 + 1) ≤ overflow * 2 ^ 51) :
    (scaled? negative d e).isSome = true := by
  obtain ⟨x, hx, hclose, hzero⟩ := ofNat?_word hd
  rw [scaled?_eq negative hx, Option.isSome_map]
  split
  · rename_i he
    obtain ⟨power, rfl⟩ := Int.eq_ofNat_of_zero_le he
    rw [zpow_natCast] at h
    exact scaleUp_isSome hclose hzero h
  · have hword : (d : Rat) < 2 ^ 64 := by exact_mod_cast hd
    have hhigh := le_abs_self (x.size - d)
    exact scaleDown_isSome _ (by linarith)

theorem scaled?_eq_none (negative : Bool) {d : Nat} {e : Int} (hd : d < 1 <<< 64)
    (h : overflow * 2 ^ 51 ≤ (d : Rat) * 10 ^ e * (2 ^ 51 - 1)) : scaled? negative d e = none := by
  obtain ⟨x, hx, hclose, hzero⟩ := ofNat?_word hd
  rw [scaled?_eq negative hx, Option.map_eq_none_iff]
  split
  · rename_i he
    obtain ⟨power, rfl⟩ := Int.eq_ofNat_of_zero_le he
    rw [zpow_natCast] at h
    exact scaleUp_eq_none hclose hzero h
  · rename_i he
    have hword : (d : Rat) < 2 ^ 64 := by exact_mod_cast hd
    have hten : (10 : Rat) ^ e ≤ 1 := zpow_le_one_of_nonpos₀ (by norm_num) (by omega)
    have hsmall := mul_le_of_le_one_right (show (0 : Rat) ≤ d by positivity) hten
    have hlarge := le_overflow (show 64 ≤ 1024 by omega)
    linarith

/-! ## Dropped digits -/

theorem valueFrom_bounds {digits : List Char} (h : ∀ c ∈ digits, isDigit c = true) (n : Nat) :
    n * 10 ^ digits.length ≤ valueFrom n digits ∧
      valueFrom n digits < (n + 1) * 10 ^ digits.length := by
  induction digits generalizing n with
  | nil => simp [valueFrom]
  | cons c cs ih =>
    obtain ⟨hlow, hhigh⟩ := ih (fun d hd => h d (List.mem_cons_of_mem _ hd)) (n * 10 + digitValue c)
    have hdigit := digitValue_lt c (h c List.mem_cons_self)
    have hfirst := Nat.mul_le_mul_right (10 ^ cs.length) (Nat.le_add_right (n * 10) (digitValue c))
    have hlast := Nat.mul_le_mul_right (10 ^ cs.length)
      (show n * 10 + digitValue c + 1 ≤ (n + 1) * 10 by omega)
    rw [Nat.mul_assoc] at hfirst hlast
    rw [List.length_cons, Nat.pow_succ, Nat.mul_comm _ 10]
    exact ⟨Nat.le_trans hfirst hlow, Nat.lt_of_lt_of_le hhigh hlast⟩

theorem valueFrom_append (n : Nat) (xs ys : List Char) :
    valueFrom n (xs ++ ys) = valueFrom (valueFrom n xs) ys := List.foldl_append

theorem valueFrom_scaled {digits : List Char} (h : ∀ c ∈ digits, isDigit c = true) (n : Nat)
    (e : Int) : n * (10 : Rat) ^ e ≤ valueFrom n digits * (10 : Rat) ^ (e - digits.length) ∧
      valueFrom n digits * (10 : Rat) ^ (e - digits.length) < (n + 1) * (10 : Rat) ^ e := by
  obtain ⟨hlow, hhigh⟩ := valueFrom_bounds h n
  have hlow' : (n : Rat) * 10 ^ digits.length ≤ valueFrom n digits := by exact_mod_cast hlow
  have hhigh' : (valueFrom n digits : Rat) < (n + 1) * 10 ^ digits.length := by
    exact_mod_cast hhigh
  have hplace : (0 : Rat) < 10 ^ digits.length := by positivity
  have hscale : (0 : Rat) < 10 ^ e := zpow_pos (by norm_num) e
  rw [zpow_sub₀ (by norm_num), zpow_natCast, ← mul_div_assoc]
  constructor
  · rw [le_div_iff₀ hplace]
    nlinarith
  · rw [div_lt_iff₀ hplace]
    nlinarith

theorem fitted_split (n : Nat) {digits : List Char} (h : ∀ c ∈ digits, isDigit c = true) :
    ∃ kept dropped, digits = kept ++ dropped ∧ fitted n digits = (valueFrom n kept, kept.length) ∧
      (dropped = [] ∨ 2 ^ 60 ≤ valueFrom n kept) := by
  induction digits generalizing n with
  | nil => exact ⟨[], [], rfl, rfl, Or.inl rfl⟩
  | cons c cs ih =>
    by_cases hfits : fitsWord (n * 10 + digitValue c) = true
    · obtain ⟨kept, dropped, rfl, hfitted, hlarge⟩ :=
        ih (n * 10 + digitValue c) (fun d hd => h d (List.mem_cons_of_mem _ hd))
      refine ⟨c :: kept, dropped, rfl, ?_, hlarge⟩
      rw [fitted, if_pos hfits, hfitted]
      rfl
    · refine ⟨[], c :: cs, rfl, by rw [fitted, if_neg hfits]; rfl, Or.inr ?_⟩
      have hdigit := digitValue_lt c (h c List.mem_cons_self)
      have hword : ¬ n * 10 + digitValue c < 1 <<< 64 := by simpa [fitsWord] using hfits
      show 2 ^ 60 ≤ n
      omega

theorem fitted_lt {n : Nat} (h : n < 1 <<< 64) (digits : List Char) :
    (fitted n digits).1 < 1 <<< 64 := by
  induction digits generalizing n with
  | nil => exact h
  | cons c cs ih =>
    rw [fitted]
    split
    · rename_i hfits
      exact ih (by simpa [fitsWord] using hfits)
    · exact h

/-- Two numbers between the same neighbours, far from zero. -/
theorem close_of_between {v : Nat} {scale a b : Rat} (hv : 2 ^ 60 ≤ v) (hscale : 0 < scale)
    (ha : v * scale ≤ a ∧ a < (v + 1) * scale) (hb : v * scale ≤ b ∧ b < (v + 1) * scale) :
    |a - b| * 2 ^ 60 ≤ b := by
  have hlarge : (2 : Rat) ^ 60 ≤ v := by exact_mod_cast hv
  have hdistance : |a - b| ≤ scale := by
    rw [abs_le]
    constructor <;> linarith
  have := mul_le_mul_of_nonneg_right hlarge hscale.le
  linarith

theorem gathered_close {whole places : List Char} (hwhole : ∀ c ∈ whole, isDigit c = true)
    (hplaces : ∀ c ∈ places, isDigit c = true) {digits : Nat} {scale : Int}
    (hdigits : digits = (fitted (fitted 0 whole).1 places).1)
    (hscale : scale = (whole.length - (fitted 0 whole).2 : Nat) -
      (fitted (fitted 0 whole).1 places).2) :
    |valueFrom 0 (whole ++ places) * (10 : Rat) ^ (-places.length : Int) -
      digits * (10 : Rat) ^ scale| * 2 ^ 60 ≤ digits * (10 : Rat) ^ scale := by
  obtain ⟨kept, dropped, rfl, hkept, hfirst⟩ := fitted_split 0 hwhole
  rw [hkept] at hdigits hscale
  obtain ⟨kept', dropped', rfl, hkept', hsecond⟩ := fitted_split (valueFrom 0 kept) hplaces
  rw [hkept'] at hdigits hscale
  obtain ⟨-, hdropped⟩ := List.forall_mem_append.mp hwhole
  obtain ⟨hplaces', hdropped'⟩ := List.forall_mem_append.mp hplaces
  subst hdigits
  rcases hfirst with rfl | hfirst
  · -- All whole digits fit, so only places are dropped.
    obtain rfl : scale = -kept'.length := by simp [hscale]
    have hexponent : (-(kept' ++ dropped').length : Int) = -kept'.length - dropped'.length := by
      simp
      omega
    rw [List.append_nil, valueFrom_append 0 kept, valueFrom_append _ kept', hexponent]
    have hten : (0 : Rat) < 10 ^ (-kept'.length : Int) := zpow_pos (by norm_num) _
    rcases hsecond with rfl | hsecond
    · simp only [valueFrom, List.foldl_nil, List.length_nil, Nat.cast_zero, sub_zero, sub_self,
        abs_zero, zero_mul]
      positivity
    · exact close_of_between hsecond hten (valueFrom_scaled hdropped' _ _)
        ⟨le_refl _, by linarith⟩
  · -- Both numbers begin with the whole digits that fit.
    obtain rfl : scale = dropped.length - kept'.length := by simp [hscale]
    have hexponent : (-(kept' ++ dropped').length : Int) =
        dropped.length - (dropped ++ (kept' ++ dropped')).length := by
      simp
    rw [List.append_assoc, valueFrom_append 0 kept, hexponent]
    exact close_of_between hfirst (zpow_pos (by norm_num) _)
      (valueFrom_scaled (List.forall_mem_append.mpr ⟨hdropped, hplaces⟩) _ _)
      (valueFrom_scaled hplaces' _ _)

/-! ## Numerals -/

def Power.exponent (p : Power) : Int :=
  if p.sign = .minus then -(valueFrom 0 p.digits.chars : Int) else valueFrom 0 p.digits.chars

namespace Numeral

/-- The digits after the point. -/
def places (n : Numeral) : List Char := (n.fraction.map Digits.chars).getD []

def exponent (n : Numeral) : Int := (n.power.map Power.exponent).getD 0

/-- The magnitude that is written. -/
def size (n : Numeral) : Rat :=
  valueFrom 0 (n.whole.chars ++ n.places) * 10 ^ (-n.places.length : Int) * 10 ^ n.exponent

/-- The digits that are gathered. -/
def gathered (n : Numeral) : Nat := (fitted (fitted 0 n.whole.chars).1 n.places).1

/-- The power of ten that belongs to the gathered digits. -/
def scale (n : Numeral) : Int :=
  (n.whole.chars.length - (fitted 0 n.whole.chars).2 : Nat) -
    (fitted (fitted 0 n.whole.chars).1 n.places).2

theorem gathered_lt (n : Numeral) : n.gathered < 1 <<< 64 := fitted_lt (fitted_lt (by decide) _) _

theorem places_digit (n : Numeral) : ∀ c ∈ n.places, isDigit c = true := by
  unfold places
  cases n.fraction with
  | none => simp
  | some f => exact f.digit

theorem size_close (n : Numeral) : |n.size - n.gathered * 10 ^ (n.scale + n.exponent)| * 2 ^ 60 ≤
    n.gathered * 10 ^ (n.scale + n.exponent) := by
  have hclose := gathered_close n.whole.digit n.places_digit (show n.gathered = _ from rfl)
    (show n.scale = _ from rfl)
  have hten : (0 : Rat) < 10 ^ n.exponent := zpow_pos (by norm_num) _
  have hscaled := mul_le_mul_of_nonneg_right hclose hten.le
  rw [zpow_add₀ (by norm_num), size, ← mul_assoc, ← sub_mul, abs_mul, abs_of_pos hten]
  linarith

theorem powered?_eq (negative : Bool) (digits : Nat) (scale : Int) {power : Option Power}
    (h : ((power.map Power.exponent).getD 0).natAbs < 1 <<< 31) :
    powered? negative digits scale power =
      scaled? negative digits (scale + (power.map Power.exponent).getD 0) := by
  cases power with
  | none => simp [powered?]
  | some p =>
    simp only [Option.map_some, Option.getD_some, Power.exponent] at h ⊢
    have hsize : valueFrom 0 p.digits.chars < 1 <<< 31 := by
      split at h <;> omega
    rw [powered?, scaledBy?]
    simp only [hsize, if_true]
    split <;> rfl

theorem number?_cases (n : Numeral) (h : n.exponent.natAbs < 1 <<< 31) :
    n.number? = scaled? n.negative n.gathered (n.scale + n.exponent) ∨
      (n.number? = wholeNumber n.negative n.gathered ∧ n.scale + n.exponent = 0) := by
  obtain ⟨negative, whole, plain, fraction, power⟩ := n
  unfold number? gathered scale exponent places at *
  cases fraction with
  | some f => exact Or.inl (powered?_eq negative _ _ h)
  | none =>
    cases power with
    | some p => exact Or.inl (by simpa [numberFrom?, fitted] using powered?_eq negative _ _ h)
    | none =>
      by_cases hdropped : whole.chars.length - (fitted 0 whole.chars).2 = 0
      · exact Or.inr ⟨by simp [numberFrom?, hdropped, fitted], by simp [hdropped, fitted]⟩
      · exact Or.inl (by simp [numberFrom?, hdropped, fitted, powered?])

theorem wholeNumber_isSome (negative : Bool) {n : Nat} (h : n < 1 <<< 64) :
    (wholeNumber negative n).isSome = true := by
  obtain ⟨x, hx, -⟩ := ofNat?_word h
  unfold wholeNumber
  split
  · split
    · rfl
    · rw [hx]
      rfl
  · rfl

/-- A numeral is in range if it is less than 2^1024 by more than one part in 2^50. -/
theorem inRange_of_le {n : Numeral} (hpower : n.exponent.natAbs < 1 <<< 31)
    (h : n.size + n.size / 2 ^ 50 ≤ overflow) : n.InRange := by
  have hclose := n.size_close
  have hover := overflow_pos
  rw [InRange]
  rcases n.number?_cases hpower with hnumber | ⟨hnumber, -⟩
  · rw [hnumber]
    generalize n.scale + n.exponent = e at *
    have hlow := neg_abs_le (n.size - n.gathered * 10 ^ e)
    exact scaled?_isSome _ n.gathered_lt (by linarith)
  · rw [hnumber]
    exact wholeNumber_isSome _ n.gathered_lt

/-- A numeral is out of range if it is greater than 2^1024 by more than one part in 2^50. -/
theorem not_inRange_of_le {n : Numeral} (hpower : n.exponent.natAbs < 1 <<< 31)
    (h : overflow ≤ n.size - n.size / 2 ^ 50) : ¬ n.InRange := by
  have hclose := n.size_close
  have hover := overflow_pos
  rw [InRange]
  rcases n.number?_cases hpower with hnumber | ⟨hnumber, hexponent⟩
  · rw [hnumber]
    generalize n.scale + n.exponent = e at *
    have hhigh := le_abs_self (n.size - n.gathered * 10 ^ e)
    rw [scaled?_eq_none _ n.gathered_lt (by linarith)]
    simp
  · have hhigh := le_abs_self (n.size - n.gathered * 10 ^ (n.scale + n.exponent))
    rw [hexponent, zpow_zero, mul_one] at hclose hhigh
    have hword : (n.gathered : Rat) < 2 ^ 64 := by exact_mod_cast n.gathered_lt
    have hlarge := le_overflow (show 67 ≤ 1024 by omega)
    linarith

/-- How what is written decides whether a numeral is in range. -/
structure RangeBySize (n : Numeral) : Prop where
  below : n.exponent.natAbs < 1 <<< 31 → n.size + n.size / 2 ^ 50 ≤ overflow → n.InRange
  above : n.exponent.natAbs < 1 <<< 31 → overflow ≤ n.size - n.size / 2 ^ 50 → ¬ n.InRange

theorem rangeBySize (n : Numeral) : n.RangeBySize := ⟨inRange_of_le, not_inRange_of_le⟩

end Numeral

end PoolWatch.Json
