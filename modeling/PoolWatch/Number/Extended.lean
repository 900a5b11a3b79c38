import PoolWatch.Number.Integer
import PoolWatch.Number.Shortest

/-!
# Binary64 numbers with infinities

All binary64 numbers: the finite ones, the two infinities, and the one that is not a number.
-/

namespace PoolWatch.Binary64

/-- A number, or one of the values that stand for none. -/
inductive Extended
  | finite (x : Binary64)
  | infinite (negative : Bool)
  | notANumber
deriving DecidableEq

namespace Extended

/-- A number in full, without a power. Infinities have names. -/
def chars : Extended → List Char
  | finite x => x.chars .plain
  | infinite negative => (if negative then ['-'] else []) ++ ['i', 'n', 'f']
  | notANumber => ['N', 'a', 'N']

def text (x : Extended) : String := String.ofList x.chars

/-- The text with a point in it, for a number that might pass for a whole one. -/
def pointedText (x : Extended) : String :=
  match x with
  | finite _ => if x.chars.contains '.' then x.text else x.text ++ ".0"
  | _ => x.text

/-- The nearest number of an unsigned 64-bit word, a half counting up. -/
def toWord64 : Extended → UInt64
  | finite x => if x.negative then 0 else .ofNat (min x.roundedHalfUp (1 <<< 64 - 1))
  | infinite negative => if negative then 0 else .ofNat (1 <<< 64 - 1)
  | notANumber => 0

/-! ## Reading -/

/-- The power of ten behind a numeral. -/
def exponent? : List Char → Option Int
  | [] => some 0
  | e :: cs => if e = 'e' ∨ e = 'E' then Integer.ofChars? cs else none

/-- Digits with at most one point among them, and perhaps a power of ten. -/
def ofNumeral? (cs : List Char) : Option Extended :=
  let whole := cs.takeWhile Char.isDigit
  let rest := cs.dropWhile Char.isDigit
  let (fraction, rest) := match rest with
    | '.' :: rest => (rest.takeWhile Char.isDigit, rest.dropWhile Char.isDigit)
    | rest => ([], rest)
  match exponent? rest with
  | none => none
  | some e =>
    if whole.isEmpty && fraction.isEmpty then none
    else match ofDecimal? (Integer.ofDigits (whole ++ fraction)) (e - fraction.length) with
      | some x => some (finite x)
      | none => some (infinite false)

def ofWord? (word : List Char) : Option Extended :=
  if word = "inf".toList ∨ word = "infinity".toList then some (infinite false)
  else if word = "nan".toList then some notANumber
  else none

def neg : Extended → Extended
  | finite x => finite x.neg
  | infinite negative => infinite !negative
  | notANumber => notANumber

def ofUnsigned? (cs : List Char) : Option Extended :=
  match ofWord? (cs.map Char.toLower) with
  | some x => some x
  | none => ofNumeral? cs

def ofChars? : List Char → Option Extended
  | '-' :: cs => (ofUnsigned? cs).map neg
  | '+' :: cs => ofUnsigned? cs
  | cs => ofUnsigned? cs

end Extended

end PoolWatch.Binary64
