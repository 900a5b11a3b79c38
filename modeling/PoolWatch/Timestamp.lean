/-!
# Points in time

A point in time is seconds since the start of 1970 and nanoseconds. Nanoseconds from 10^9 on belong
to a leap second, which is shown as second 60.
-/

namespace PoolWatch

/-- Seconds since 1970, and what is behind their point. There may be a leap second in it. -/
structure Timestamp where
  seconds : Int
  nanos : Nat
deriving DecidableEq

structure Date where
  year : Int
  month : Nat
  day : Nat
deriving DecidableEq

/-- The date so many days after 1 January 1970. Years are counted from March, in cycles of 400
years, so that the leap day is the last day of a year. -/
def Date.ofDays (days : Int) : Date :=
  let shifted := days + 719468
  let cycle := shifted.fdiv 146097
  let dayOfCycle := (shifted.fmod 146097).toNat
  let yearOfCycle :=
    (dayOfCycle - dayOfCycle / 1460 + dayOfCycle / 36524 - dayOfCycle / 146096) / 365
  let dayOfYear := dayOfCycle - (365 * yearOfCycle + yearOfCycle / 4 - yearOfCycle / 100)
  let marchMonth := (5 * dayOfYear + 2) / 153
  let day := dayOfYear - (153 * marchMonth + 2) / 5 + 1
  let month := if marchMonth < 10 then marchMonth + 3 else marchMonth - 9
  ⟨cycle * 400 + yearOfCycle + (if month ≤ 2 then 1 else 0), month, day⟩

namespace Timestamp

def padded (width n : Nat) : List Char :=
  let digits := Nat.toDigits 10 n
  List.replicate (width - digits.length) '0' ++ digits

/-- Four digits, and a sign in front for years outside 0 to 9999. -/
def yearChars (year : Int) : List Char :=
  if 0 ≤ year ∧ year ≤ 9999 then padded 4 year.natAbs
  else (if year < 0 then '-' else '+') :: padded 4 year.natAbs

def date (t : Timestamp) : Date := .ofDays (t.seconds.fdiv 86400)

def secondOfDay (t : Timestamp) : Nat := (t.seconds.fmod 86400).toNat

def dateChars (t : Timestamp) : List Char :=
  let d := t.date
  yearChars d.year ++ '-' :: (padded 2 d.month ++ '-' :: padded 2 d.day)

/-- A leap second is the sixtieth of its minute. -/
def timeChars (t : Timestamp) : List Char :=
  let s := t.secondOfDay
  let second := s % 60 + (if t.nanos ≥ 1000000000 then 1 else 0)
  padded 2 (s / 3600) ++ ':' :: (padded 2 (s / 60 % 60) ++ ':' :: padded 2 second)

/-- Nothing, or three, six or nine digits. -/
def fractionChars (t : Timestamp) : List Char :=
  let n := t.nanos % 1000000000
  if n = 0 then []
  else if n % 1000000 = 0 then '.' :: padded 3 (n / 1000000)
  else if n % 1000 = 0 then '.' :: padded 6 (n / 1000)
  else '.' :: padded 9 n

/-- The time as a reader sees it, to the second. -/
def display (t : Timestamp) : String :=
  String.ofList (t.dateChars ++ ' ' :: (t.timeChars ++ [' ', 'U', 'T', 'C']))

/-- The time as data, to the nanosecond. -/
def iso (t : Timestamp) : String :=
  String.ofList (t.dateChars ++ 'T' :: (t.timeChars ++ t.fractionChars ++ ['Z']))

end Timestamp

end PoolWatch
