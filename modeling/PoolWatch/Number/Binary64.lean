/-!
# Finite binary64 numbers

A number is a sign and the rank of its magnitude: its place in the list of all non-negative
binary64 numbers, 0 first. All arithmetic is exact on whole numbers, with 2^-1074, the smallest
magnitude above zero, as the unit. A result is the nearest number; of two at the same distance, the
one with the even rank.
-/

namespace PoolWatch

/-- The rank that would come after the largest finite number. -/
def Binary64.infinityRank : Nat := 2047 <<< 52

/-- A finite number, by its sign and by its place among all magnitudes. -/
structure Binary64 where
  negative : Bool
  rank : Nat
  finite : rank < Binary64.infinityRank
deriving DecidableEq

namespace Binary64

/-- The magnitude at a rank, in units of 2^-1074. -/
def unitsAt (rank : Nat) : Nat :=
  if rank < 1 <<< 52 then rank
  else (1 <<< 52 + rank % 1 <<< 52) <<< (rank >>> 52 - 1)

def units (x : Binary64) : Nat := unitsAt x.rank

def zero : Binary64 := ⟨false, 0, by decide⟩

def isZero (x : Binary64) : Bool := x.rank == 0

def neg (x : Binary64) : Binary64 := { x with negative := !x.negative }

def withSign (negative : Bool) (x : Binary64) : Binary64 := { x with negative }

/-! ## Rounding -/

/-- The whole number nearest to `num / den`, to the even one when two are. -/
def nearestEven (num den : Nat) : Nat :=
  let q := num / den
  let r := num % den
  if 2 * r < den then q else if den < 2 * r then q + 1 else q + q % 2

/-- The rank nearest to `num / den` units. It may be past the last finite one. -/
def rankOf (num den : Nat) : Nat :=
  let shift := (num / den).log2 - 52
  shift <<< 52 + nearestEven num (den <<< shift)

/-- The number nearest to `num / den` units, if it is finite. -/
@[irreducible] def ofUnits? (num den : Nat) : Option Binary64 :=
  if h : rankOf num den < infinityRank then some ⟨false, rankOf num den, h⟩ else none

def ofNat? (n : Nat) : Option Binary64 := ofUnits? (n <<< 1074) 1

/-- The nearest number to a product, if it is in range. -/
def mul? (x y : Binary64) : Option Binary64 := ofUnits? (x.units * y.units) (1 <<< 1074)

/-- The nearest number to a quotient, if it is in range. -/
def div? (x y : Binary64) : Option Binary64 := ofUnits? (x.units <<< 1074) y.units

/-- The number nearest to `digits * 10 ^ exponent`, if it is finite. Exponents far out of range are
settled without writing the power out. -/
def ofDecimal? (digits : Nat) (exponent : Int) : Option Binary64 :=
  let size := (Nat.toDigits 10 digits).length
  if digits = 0 then some zero
  else if exponent > 400 then none
  else if exponent + size < -400 then some zero
  else if exponent ≥ 0 then ofUnits? ((digits * Nat.pow 10 exponent.toNat) <<< 1074) 1
  else ofUnits? (digits <<< 1074) (Nat.pow 10 (-exponent).toNat)

/-! ## Whole numbers -/

/-- The magnitude without its fraction. -/
def truncated (x : Binary64) : Nat := x.units >>> 1074

/-- The whole number nearest to the magnitude, a half counting up. -/
def roundedHalfUp (x : Binary64) : Nat := (2 * x.units + 1 <<< 1074) >>> 1075

def signed (x : Binary64) (magnitude : Nat) : Int :=
  if x.negative then -(magnitude : Int) else magnitude

end Binary64

end PoolWatch
