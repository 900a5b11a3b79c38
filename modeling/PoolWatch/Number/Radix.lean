/-!
# Numbers in bases up to sixteen
-/

namespace PoolWatch.Radix

/-- The value of a digit in base sixteen, in either case. -/
def value? (c : Char) : Option Nat :=
  if '0' ≤ c ∧ c ≤ '9' then some (c.toNat - 48)
  else if 'a' ≤ c ∧ c ≤ 'f' then some (c.toNat - 87)
  else if 'A' ≤ c ∧ c ≤ 'F' then some (c.toNat - 55)
  else none

def isDigit (base : Nat) (c : Char) : Bool := (value? c).any (· < base)

def ofDigits (base : Nat) (digits : List Char) : Nat :=
  digits.foldl (fun n c => n * base + (value? c).getD 0) 0

/-- The character whose number is written in hexadecimal digits. -/
def char? (digits : List Char) : Option Char :=
  if digits.all (isDigit 16) ∧ (ofDigits 16 digits).isValidChar then
    some (Char.ofNat (ofDigits 16 digits))
  else none

end PoolWatch.Radix
