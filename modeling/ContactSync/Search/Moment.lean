/-
Moments of the proleptic Gregorian calendar, to the second.

A moment is written as year, month and day, a T, hour, minute and second, and a Z. Years from 0 to 9999 have four
digits; before that a minus and at least four digits, after that a plus. A leap second is written as second 60.
-/
namespace ContactSync

/-- a second of some day, with the nanoseconds after it; a thousand million or more of them are a leap second -/
structure Moment where
  year : Int
  month : Nat
  day : Nat
  hour : Nat
  minute : Nat
  second : Nat
  nanos : Nat
  deriving DecidableEq, Repr

namespace Moment

/-- whether a year has a 29th of February -/
def isLeap (year : Int) : Bool :=
  year % 4 == 0 && (year % 100 != 0 || year % 400 == 0)

def daysIn (year : Int) (month : Nat) : Nat :=
  match month with
  | 2 => if isLeap year then 29 else 28
  | 4 | 6 | 9 | 11 => 30
  | _ => 31

def isValid (m : Moment) : Bool :=
  -262143 ≤ m.year && m.year ≤ 262142 &&
  1 ≤ m.month && m.month ≤ 12 && 1 ≤ m.day && m.day ≤ daysIn m.year m.month &&
  m.hour < 24 && m.minute < 60 && m.second < 60 &&
  (m.nanos < 1000000000 || (m.second == 59 && m.nanos < 2000000000))

/-- the moment that these numbers make -/
def make? (year : Int) (month day hour minute second nanos : Nat) : Option Moment :=
  let m : Moment := ⟨year, month, day, hour, minute, second, nanos⟩
  if m.isValid then some m else none

/-- the first moment of a day -/
def midnight? (year : Int) (month day : Nat) : Option Moment :=
  make? year month day 0 0 0 0

/-- the form of a written moment, a letter after a percent sign standing for one of its numbers -/
def form : String := "%Y-%m-%dT%H:%M:%SZ"

/-- a number with zeros in front up to a width -/
def padded (width n : Nat) : String :=
  let digits := Nat.toDigits 10 n
  String.ofList (List.replicate (width - digits.length) '0' ++ digits)

def yearText (year : Int) : String :=
  if year < 0 then "-" ++ padded 4 year.natAbs
  else if 9999 < year then "+" ++ padded 4 year.natAbs
  else padded 4 year.natAbs

/-- the second in writing, a leap second as 60 -/
def secondText (m : Moment) : String :=
  padded 2 (m.second + m.nanos / 1000000000)

def text (m : Moment) : String :=
  yearText m.year ++ "-" ++ padded 2 m.month ++ "-" ++ padded 2 m.day ++ "T" ++
    padded 2 m.hour ++ ":" ++ padded 2 m.minute ++ ":" ++ m.secondText ++ "Z"

end Moment

end ContactSync
