import PoolWatch.Json.Failure

/-!
# Reading JSON numbers

The digits are gathered into a whole number of 64 bits as long as they fit. Further whole digits
only raise the exponent, and further digits after the point are dropped. A number with a point or an
exponent, or with too many digits, is then scaled by a power of ten with a single rounding for each
multiplication or division.
-/

namespace PoolWatch.Json

def isDigit (c : Char) : Bool := '0' ≤ c && c ≤ '9'

def digitValue (c : Char) : Nat := c.toNat - 48

def fitsWord (n : Nat) : Bool := n < 1 <<< 64

/-- Gathers digits while they fit, and counts the digits that do not. -/
def wholeDigits : Nat → List Char → Nat × Nat × List Char
  | n, [] => (n, 0, [])
  | n, c :: rest =>
    if isDigit c then
      if fitsWord (n * 10 + digitValue c) then wholeDigits (n * 10 + digitValue c) rest
      else (n, ((c :: rest).takeWhile isDigit).length, (c :: rest).dropWhile isDigit)
    else (n, 0, c :: rest)

/-- Gathers digits after the point, with the number of those gathered. -/
def pointDigits : Nat → Nat → List Char → Nat × Nat × List Char
  | n, places, [] => (n, places, [])
  | n, places, c :: rest =>
    if isDigit c then
      if fitsWord (n * 10 + digitValue c) then
        pointDigits (n * 10 + digitValue c) (places + 1) rest
      else (n, places, (c :: rest).dropWhile isDigit)
    else (n, places, c :: rest)

/-! ## Scaling -/

/-- Ten to the power, up to 308, as the nearest binary64 number. -/
def tenTo? (power : Nat) : Option Binary64 := Binary64.ofNat? (Nat.pow 10 power)

/-- Divides by 10^308 so many times, or until nothing is left. -/
def shrink : Nat → Binary64 → Option Binary64
  | 0, x => some x
  | steps + 1, x =>
    if x.isZero then some x
    else match (tenTo? 308).bind (x.div? ·) with
      | none => none
      | some y => shrink steps y

/-- Divides by ten to the power, 10^308 at a time. -/
def scaleDown (x : Binary64) (power : Nat) : Option Binary64 :=
  let steps := (power - 1) / 308
  match shrink steps x with
  | none => none
  | some y => if y.isZero then some y else (tenTo? (power - 308 * steps)).bind (y.div? ·)

/-- Beyond the largest power of ten only zero stays in range. -/
def scaleUp (x : Binary64) (power : Nat) : Option Binary64 :=
  if power ≤ 308 then (tenTo? power).bind (x.mul? ·)
  else if x.isZero then some x else none

/-- `digits * 10 ^ exponent`, or nothing when that is past the largest finite number. -/
def scaled? (negative : Bool) (digits : Nat) (exponent : Int) : Option Number := do
  let x ← Binary64.ofNat? digits
  let y ← if exponent ≥ 0 then scaleUp x exponent.toNat else scaleDown x (-exponent).toNat
  return .real (y.withSign negative)

/-- A number that is too large is a fault behind its last character. -/
def checkRange (rest : List Char) : Option Number → Except Failure (Number × List Char)
  | some n => .ok (n, rest)
  | none => failHere .numberTooLarge rest

def finishScaled (negative : Bool) (digits : Nat) (exponent : Int) (rest : List Char) :
    Except Failure (Number × List Char) :=
  checkRange rest (scaled? negative digits exponent)

/-! ## The parts of a number -/

/-- The digits of an exponent, as long as they fit a signed 32-bit word. Otherwise what follows the
digit that is too much. -/
def exponentDigits : Nat → List Char → Except (List Char) (Nat × List Char)
  | n, [] => .ok (n, [])
  | n, c :: rest =>
    if isDigit c then
      if n * 10 + digitValue c < 1 <<< 31 then exponentDigits (n * 10 + digitValue c) rest
      else .error rest
    else .ok (n, c :: rest)

/-- Whether there is a minus, and what follows the sign. -/
def takeSign : List Char → Bool × List Char
  | '+' :: r => (false, r)
  | '-' :: r => (true, r)
  | r => (false, r)

def readExponent (negative : Bool) (digits : Nat) (start : Int) (s : List Char) :
    Except Failure (Number × List Char) :=
  let down := (takeSign s).1
  match (takeSign s).2 with
  | [] => failHere .endInValue []
  | c :: rest =>
    if isDigit c then
      match exponentDigits (digitValue c) rest with
      | .ok (n, rest) => finishScaled negative digits (if down then start - n else start + n) rest
      | .error rest =>
        if digits != 0 && !down then failHere .numberTooLarge rest
        else .ok (.real (Binary64.zero.withSign negative), rest.dropWhile isDigit)
    else failPeek .badNumber (c :: rest)

/-- The power, if there is one, and with it the end of the number. -/
def readPower (negative : Bool) (digits : Nat) (start : Int) :
    List Char → Except Failure (Number × List Char)
  | 'e' :: r => readExponent negative digits start r
  | 'E' :: r => readExponent negative digits start r
  | r => finishScaled negative digits start r

/-- The digits behind the point. There is one at least. -/
def readFraction (negative : Bool) (digits : Nat) (start : Int) (s : List Char) :
    Except Failure (Number × List Char) :=
  match s with
  | [] => failPeek .endInValue []
  | c :: rest =>
    if isDigit c then
      let (digits, places, rest) := pointDigits digits 0 (c :: rest)
      readPower negative digits (start - places) rest
    else failPeek .badNumber (c :: rest)

/-- A whole number with its sign. A negative one that no signed word holds, and minus zero, are
binary64 numbers. -/
def wholeNumber (negative : Bool) (n : Nat) : Option Number :=
  if negative then
    if h : n ≠ 0 ∧ n ≤ 1 <<< 63 then some (.whole (-n) ⟨by omega, by omega⟩)
    else (Binary64.ofNat? n).map (fun x => .real (x.withSign true))
  else if h : n < 1 <<< 64 then some (.whole n ⟨by omega, by omega⟩) else none

/-- Reads on after the whole digits, of which `dropped` did not fit. -/
def readAfterDigits (negative : Bool) (digits dropped : Nat) (s : List Char) :
    Except Failure (Number × List Char) :=
  match s with
  | '.' :: r => readFraction negative digits dropped r
  | 'e' :: r => readExponent negative digits dropped r
  | 'E' :: r => readExponent negative digits dropped r
  | r =>
    if dropped = 0 then checkRange r (wholeNumber negative digits)
    else finishScaled negative digits dropped r

/-- A number without its sign. -/
def readNumber (negative : Bool) : List Char → Except Failure (Number × List Char)
  | [] => failHere .endInValue []
  | c :: rest =>
    if c = '0' then
      match rest with
      | d :: r =>
        if isDigit d then failPeek .badNumber (d :: r) else readAfterDigits negative 0 0 (d :: r)
      | [] => readAfterDigits negative 0 0 []
    else if isDigit c then
      let (digits, dropped, rest) := wholeDigits 0 (c :: rest)
      readAfterDigits negative digits dropped rest
    else failPeek .badNumber (c :: rest)

/-! ## Numbers nobody will look at -/

/-- Passes over a power without computing it, so no number is too large here. -/
def skipExponent (s : List Char) : Except Failure (List Char) :=
  match (takeSign s).2 with
  | [] => failPeek .badNumber []
  | c :: rest => if isDigit c then .ok (rest.dropWhile isDigit) else failPeek .badNumber (c :: rest)

def skipPower : List Char → Except Failure (List Char)
  | 'e' :: r => skipExponent r
  | 'E' :: r => skipExponent r
  | r => .ok r

def skipFraction (s : List Char) : Except Failure (List Char) :=
  match s with
  | [] => failPeek .badNumber []
  | c :: rest =>
    if isDigit c then skipPower (rest.dropWhile isDigit) else failPeek .badNumber (c :: rest)

def skipAfterDigits : List Char → Except Failure (List Char)
  | '.' :: r => skipFraction r
  | r => skipPower r

def skipNumber : List Char → Except Failure (List Char)
  | [] => failPeek .badNumber []
  | c :: rest =>
    if c = '0' then
      match rest with
      | d :: r => if isDigit d then failPeek .badNumber (d :: r) else skipAfterDigits (d :: r)
      | [] => .ok []
    else if isDigit c then skipAfterDigits (rest.dropWhile isDigit)
    else failPeek .badNumber (c :: rest)

end PoolWatch.Json
