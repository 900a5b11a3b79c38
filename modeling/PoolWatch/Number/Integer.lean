/-!
# Whole numbers in decimal
-/

namespace PoolWatch.Integer

def isDecimal (cs : List Char) : Bool := !cs.isEmpty && cs.all Char.isDigit

def ofDigits (cs : List Char) : Nat := Nat.ofDigitChars 10 cs 0

/-- Decimal digits after an optional sign. -/
def ofChars? : List Char → Option Int
  | '-' :: cs => if isDecimal cs then some (-(ofDigits cs : Int)) else none
  | '+' :: cs => if isDecimal cs then some (ofDigits cs) else none
  | cs => if isDecimal cs then some (ofDigits cs) else none

/-- Decimal digits after an optional plus. -/
def natOfChars? : List Char → Option Nat
  | '+' :: cs => if isDecimal cs then some (ofDigits cs) else none
  | cs => if isDecimal cs then some (ofDigits cs) else none

/-- The nearest number of a signed 64-bit word. -/
def clamp (n : Int) : Int64 := Int64.ofInt (max (-(1 <<< 63 : Nat)) (min n ((1 <<< 63 : Nat) - 1)))

def fitsInt64 (n : Int) : Bool := -(1 <<< 63) ≤ n && n < 1 <<< 63

/-- A number with or without a sign that fits 64 bits. -/
def int64OfChars? (cs : List Char) : Option Int64 :=
  match ofChars? cs with
  | some n => if fitsInt64 n then some (Int64.ofInt n) else none
  | none => none

/-- A number without a minus that fits 64 bits. -/
def uint64OfChars? (cs : List Char) : Option UInt64 :=
  match natOfChars? cs with
  | some n => if n < 1 <<< 64 then some (UInt64.ofNat n) else none
  | none => none

def text (n : Int) : String :=
  String.ofList (if n < 0 then '-' :: Nat.toDigits 10 n.natAbs else Nat.toDigits 10 n.natAbs)

end PoolWatch.Integer
