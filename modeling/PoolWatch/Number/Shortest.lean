import PoolWatch.Number.Binary64

/-!
# The shortest decimal that reads back

Of the decimals that round to a given binary64 number, the one with the fewest digits, and of those
the nearest. Then its text, in the two styles that the program writes.
-/

namespace PoolWatch

/-- Digits as one number, and the power of ten that they are moved by. -/
structure Decimal where
  digits : Nat
  exponent : Int
deriving DecidableEq

namespace Binary64

/-- Ten to the `exponent`, as a factor above and a factor below the fraction bar. -/
def tenPower (exponent : Int) : Nat × Nat :=
  if exponent ≥ 0 then (Nat.pow 10 exponent.toNat, 1)
  else (1, Nat.pow 10 (-exponent).toNat)

/-- Whether `digits * 10 ^ exponent` rounds to the magnitude at `rank`. It must lie between the two
points half way to the neighbours, which count when the rank is even. -/
def roundsTo (rank digits : Nat) (exponent : Int) : Bool :=
  let (up, down) := tenPower exponent
  let value := (digits * up) <<< 1075
  let low := (unitsAt (rank - 1) + unitsAt rank) * down
  let high := (unitsAt rank + unitsAt (rank + 1)) * down
  if rank % 2 = 0 then low ≤ value && value ≤ high else low < value && value < high

/-- The best decimal with this exponent, if one reads back: the nearer of the two neighbours. -/
def atExponent? (rank : Nat) (exponent : Int) : Option Nat :=
  let (up, down) := tenPower exponent
  let num := unitsAt rank * down
  let den := up <<< 1074
  let below := num / den
  let above := below + 1
  match roundsTo rank below exponent, roundsTo rank above exponent with
  | true, false => some below
  | false, true => some above
  | false, false => none
  | true, true =>
    let near := num - below * den
    let far := above * den - num
    if near < far then some below else if far < near then some above
    else if below % 2 = 0 then some below else some above

/-- The first exponent, going down from `exponent`, that has a decimal. -/
def searchDown (rank : Nat) : Nat → Int → Option Decimal
  | 0, _ => none
  | tries + 1, exponent =>
    match atExponent? rank exponent with
    | some digits => some ⟨digits, exponent⟩
    | none => searchDown rank tries (exponent - 1)

/-- An exponent at which ten to that power is above the magnitude. -/
def startExponent (rank : Nat) : Int :=
  (((unitsAt rank).log2 : Int) - 1073) * 30103 / 100000 + 2

/-- Seventeen digits always read back, so a few more tries than that are enough. -/
def shortest (x : Binary64) : Decimal :=
  if x.isZero then ⟨0, 0⟩ else (searchDown x.rank 24 (startExponent x.rank)).getD ⟨0, 0⟩

end Binary64

/-! ## Texts -/

/-- How a decimal is written: which leading exponents are written out in place, what marks a whole
number, and whether a power of ten shows a plus. -/
structure DecimalStyle where
  inPlace : Int → Bool
  wholeMark : List Char
  plus : Bool

/-- From 10^-5 up to 10^16 in place, whole numbers end in `.0`, and powers have a sign. -/
def DecimalStyle.json : DecimalStyle :=
  ⟨fun e => decide (-5 ≤ e) && decide (e ≤ 15), ['.', '0'], true⟩

/-- Always in place, with nothing after a whole number. -/
def DecimalStyle.plain : DecimalStyle := ⟨fun _ => true, [], false⟩

namespace Decimal

/-- The digits with the point put where it belongs. -/
def inPlaceChars (digits : List Char) (exponent : Int) (wholeMark : List Char) : List Char :=
  if exponent ≥ 0 then digits ++ List.replicate exponent.toNat '0' ++ wholeMark
  else
    let places := (-exponent).toNat
    if places < digits.length then
      digits.take (digits.length - places) ++ '.' :: digits.drop (digits.length - places)
    else '0' :: '.' :: (List.replicate (places - digits.length) '0' ++ digits)

def signedChars (n : Int) : List Char :=
  if n < 0 then '-' :: Nat.toDigits 10 n.natAbs else Nat.toDigits 10 n.natAbs

/-- One digit before the point, and a power of ten. -/
def powerChars (digits : List Char) (leading : Int) (plus : Bool) : List Char :=
  let mantissa := match digits with
    | d :: e :: rest => d :: '.' :: e :: rest
    | ds => ds
  mantissa ++ 'e' :: (if plus && decide (leading ≥ 0) then ['+'] else []) ++ signedChars leading

/-- A decimal in place or with a power, as the style has it. -/
def chars (style : DecimalStyle) (d : Decimal) : List Char :=
  let digits := Nat.toDigits 10 d.digits
  let leading := d.exponent + digits.length - 1
  if style.inPlace leading then inPlaceChars digits d.exponent style.wholeMark
  else powerChars digits leading style.plus

end Decimal

def Binary64.chars (style : DecimalStyle) (x : Binary64) : List Char :=
  (if x.negative then ['-'] else []) ++ x.shortest.chars style

end PoolWatch
