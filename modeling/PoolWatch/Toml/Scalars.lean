import PoolWatch.Config.Tree
import PoolWatch.Number.Radix

/-!
# Numbers, truth values and dates of TOML

All of these are words: they end where a character comes that none of them has. A date is kept as
the text of its usual form.
-/

namespace PoolWatch.Toml

open Config

def isWordChar (c : Char) : Bool :=
  c.isAlphanum || c == '_' || c == '-' || c == '+' || c == '.' || c == ':'

/-! ## Digits -/

/-- Digits without the underscores that may stand between them. -/
def plainDigits? (isDigit : Char → Bool) : List Char → Option (List Char)
  | [] => none
  | [c] => if isDigit c then some [c] else none
  | c :: '_' :: rest => if isDigit c then (plainDigits? isDigit rest).map (c :: ·) else none
  | c :: rest => if isDigit c then (plainDigits? isDigit rest).map (c :: ·) else none

/-- Decimal digits that do not begin with a needless zero. -/
def wholeDigits? (cs : List Char) : Option (List Char) :=
  match plainDigits? Char.isDigit cs with
  | some ('0' :: _ :: _) => none
  | r => r

/-! ## Numbers -/

/-- The base that a mark behind a zero stands for. -/
def base? : Char → Option Nat
  | 'x' => some 16
  | 'o' => some 8
  | 'b' => some 2
  | _ => none

def signed? : List Char → Bool × List Char
  | '-' :: cs => (true, cs)
  | '+' :: cs => (false, cs)
  | cs => (false, cs)

/-- A whole number, in decimal or in a base with a mark. -/
def wholeOfWord? (word : List Char) : Option Int :=
  let magnitude := match word with
    | '0' :: mark :: digits =>
      match base? mark with
      | some base => (plainDigits? (Radix.isDigit base) digits).map (Radix.ofDigits base)
      | none => none
    | _ => (wholeDigits? (signed? word).2).map Integer.ofDigits
  match magnitude with
  | some n =>
    let n : Int := if (signed? word).1 then -n else n
    if Integer.fitsInt64 n then some n else none
  | none => none

/-- The power of ten of a number, behind its mark. -/
def powerOf? (cs : List Char) : Option Int :=
  match plainDigits? Char.isDigit (signed? cs).2 with
  | some digits =>
    some (if (signed? cs).1 then -(Integer.ofDigits digits : Int) else Integer.ofDigits digits)
  | none => none

/-- A number with a fraction or a power of ten, and no sign. -/
def realOfDigits? (cs : List Char) : Option Binary64 :=
  let isMark := fun (c : Char) => c == 'e' || c == 'E'
  let body := cs.takeWhile (!isMark ·)
  let power := match cs.dropWhile (!isMark ·) with
    | [] => some 0
    | _ :: rest => powerOf? rest
  let whole := wholeDigits? (body.takeWhile (· != '.'))
  let fraction := match body.dropWhile (· != '.') with
    | [] => if body.length < cs.length then some [] else none
    | _ :: rest => plainDigits? Char.isDigit rest
  match whole, fraction, power with
  | some whole, some fraction, some power =>
    Binary64.ofDecimal? (Integer.ofDigits (whole ++ fraction)) (power - fraction.length)
  | _, _, _ => none

def realOfWord? (word : List Char) : Option Binary64.Extended :=
  let (negative, cs) := signed? word
  let magnitude : Option Binary64.Extended :=
    if cs = "inf".toList then some (.infinite false)
    else if cs = "nan".toList then some .notANumber
    else (realOfDigits? cs).map .finite
  magnitude.map fun x => if negative then x.neg else x

/-! ## Dates and times -/

/-- Exactly so many digits. -/
def digits? (count : Nat) (cs : List Char) : Option (Nat × List Char) :=
  let digits := cs.take count
  if digits.length = count ∧ digits.all Char.isDigit then
    some (Integer.ofDigits digits, cs.drop count)
  else none

def daysIn (year month : Nat) : Nat :=
  if month = 2 then if year % 4 = 0 ∧ (year % 100 ≠ 0 ∨ year % 400 = 0) then 29 else 28
  else if month = 4 ∨ month = 6 ∨ month = 9 ∨ month = 11 then 30 else 31

def padded (count n : Nat) : List Char :=
  let digits := Nat.toDigits 10 n
  List.replicate (count - digits.length) '0' ++ digits

/-- A day that is in the calendar, as it was written. -/
def date? (cs : List Char) : Option (List Char × List Char) := do
  let (year, cs) ← digits? 4 cs
  let '-' :: cs := cs | none
  let (month, cs) ← digits? 2 cs
  let '-' :: cs := cs | none
  let (day, cs) ← digits? 2 cs
  if 1 ≤ month ∧ month ≤ 12 ∧ 1 ≤ day ∧ day ≤ daysIn year month then
    some (padded 4 year ++ '-' :: padded 2 month ++ '-' :: padded 2 day, cs)
  else none

/-- The nine leading digits of a fraction, without zeros at their end. -/
def fractionText (digits : List Char) : List Char :=
  match ((digits.take 9).reverse.dropWhile (· == '0')).reverse with
  | [] => []
  | digits => '.' :: digits

def seconds? : List Char → Option (List Char × List Char)
  | ':' :: cs => do
    let (second, cs) ← digits? 2 cs
    if second > 60 then none
    else match cs with
      | '.' :: rest =>
        let digits := rest.takeWhile Char.isDigit
        if digits.isEmpty then none
        else some (':' :: padded 2 second ++ fractionText digits, rest.dropWhile Char.isDigit)
      | _ => some (':' :: padded 2 second, cs)
  | cs => some ([':', '0', '0'], cs)

def time? (cs : List Char) : Option (List Char × List Char) := do
  let (hour, cs) ← digits? 2 cs
  let ':' :: cs := cs | none
  let (minute, cs) ← digits? 2 cs
  let (seconds, cs) ← seconds? cs
  if hour < 24 ∧ minute < 60 then
    some (padded 2 hour ++ ':' :: padded 2 minute ++ seconds, cs)
  else none

def offset? : List Char → Option (List Char)
  | [] => some []
  | ['Z'] | ['z'] => some ['Z']
  | sign :: cs => do
    let (hour, cs) ← digits? 2 cs
    let ':' :: cs := cs | none
    let (minute, cs) ← digits? 2 cs
    if (sign = '+' ∨ sign = '-') ∧ hour < 24 ∧ minute < 60 ∧ cs = [] then
      let sign := if hour = 0 ∧ minute = 0 then '+' else sign
      some (sign :: padded 2 hour ++ ':' :: padded 2 minute)
    else none

/-- A date, a time, or both. -/
def dateOfWord? (word : List Char) : Option (List Char) :=
  match date? word with
  | some (date, []) => some date
  | some (date, mark :: rest) =>
    if mark = 'T' ∨ mark = 't' ∨ mark = ' ' then
      match time? rest with
      | some (time, rest) => (offset? rest).map fun offset => date ++ 'T' :: time ++ offset
      | none => none
    else none
  | none =>
    match time? word with
    | some (time, []) => some time
    | _ => none

/-! ## Words -/

def scalarOfWord? (word : List Char) : Option Scalar :=
  if word = "true".toList then some (.bool true)
  else if word = "false".toList then some (.bool false)
  else match wholeOfWord? word, realOfWord? word, dateOfWord? word with
    | some n, _, _ => some (.whole n)
    | _, some x, _ => some (.real x)
    | _, _, some date => some (.text (String.ofList date))
    | _, _, _ => none

/-- A word, and with a date also the time behind a blank. -/
def splitWord (cs : List Char) : List Char × List Char :=
  let word := cs.takeWhile isWordChar
  match cs.dropWhile isWordChar with
  | ' ' :: c :: rest =>
    if c.isDigit && (date? word).any (·.2.isEmpty) then
      (word ++ ' ' :: (c :: rest).takeWhile isWordChar, (c :: rest).dropWhile isWordChar)
    else (word, ' ' :: c :: rest)
  | rest => (word, rest)

def readScalar (cs : List Char) : Option (Scalar × List Char) :=
  match scalarOfWord? (splitWord cs).1 with
  | some v => some (v, (splitWord cs).2)
  | none => none

end PoolWatch.Toml
