/-!
# Lengths of time

Whole seconds and nanoseconds, and the short text of a length: in the largest unit that is not
below one, with as many places as it takes.
-/

namespace PoolWatch

/-- A length of time. The nanoseconds are less than a second. -/
structure Duration where
  seconds : Nat
  nanos : Nat
deriving DecidableEq

namespace Duration

/-- Nanoseconds beyond a second are carried over. -/
def ofParts (seconds nanos : Nat) : Duration :=
  ⟨seconds + nanos / 1000000000, nanos % 1000000000⟩

def ofMillis (ms : Nat) : Duration := ⟨ms / 1000, ms % 1000 * 1000000⟩

/-- Digits of a fraction, without the zeros at their end. -/
def places (width n : Nat) : List Char :=
  let digits := Nat.toDigits 10 n
  let padded := List.replicate (width - digits.length) '0' ++ digits
  (padded.reverse.dropWhile (· == '0')).reverse

/-- A whole part, the fraction behind it if there is one, and the unit. -/
def inUnit (whole : Nat) (fraction : List Char) (unit : List Char) : List Char :=
  Nat.toDigits 10 whole ++ (if fraction.isEmpty then [] else '.' :: fraction) ++ unit

/-- A length of time in the largest unit that does not begin with zero. -/
def chars (d : Duration) : List Char :=
  if d.seconds > 0 then inUnit d.seconds (places 9 d.nanos) ['s']
  else if d.nanos ≥ 1000000 then
    inUnit (d.nanos / 1000000) (places 6 (d.nanos % 1000000)) ['m', 's']
  else if d.nanos ≥ 1000 then inUnit (d.nanos / 1000) (places 3 (d.nanos % 1000)) ['µ', 's']
  else inUnit d.nanos [] ['n', 's']

def text (d : Duration) : String := String.ofList d.chars

end Duration

end PoolWatch
