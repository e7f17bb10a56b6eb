import Rebac.Numeral

/-
  This file defines the written form of times.

  A time is a number of milliseconds since the first moment
  of 1970. It is written as a date and a time of day, and
  the milliseconds behind a point. Times before 1970 are cut
  toward that moment, so their milliseconds are negative.

  Key definitions include:
    * `Timestamp.Date`
    * `Timestamp.dateOfDay`
    * `Timestamp.text`
-/

namespace Rebac

namespace Timestamp

------------------------------------------------------------
-- Dates
------------------------------------------------------------

/- A date; months and days count from one. -/
structure Date where
  year : Int
  month : Nat
  day : Nat
  deriving DecidableEq, Repr

/-
  The date of a day that is counted from the first of March
  of a year divisible by 400. Years begin in March here, so
  that a leap day is the last one of its year.
-/
def dateInCycle (cycle : Int) (day : Nat) : Date :=
  let yearOfCycle :=
    (day - day / 1460 + day / 36524 - day / 146096) / 365
  let dayOfYear :=
    day - (365 * yearOfCycle + yearOfCycle / 4 -
      yearOfCycle / 100)
  let monthFromMarch := (5 * dayOfYear + 2) / 153
  let month :=
    if monthFromMarch < 10 then
      monthFromMarch + 3
    else
      monthFromMarch - 9
  { year :=
      400 * cycle + yearOfCycle + if month ≤ 2 then 1 else 0
    month := month
    day := dayOfYear - (153 * monthFromMarch + 2) / 5 + 1 }

/- The date of a day that is counted from 1 January 1970. -/
def dateOfDay (day : Int) : Date :=
  let shifted := day + 719468
  dateInCycle (Int.fdiv shifted 146097)
    (Int.fmod shifted 146097).toNat

------------------------------------------------------------
-- Writing
------------------------------------------------------------

/- A number with at least the given number of digits. -/
def padded (width : Nat) (number : Int) : Bytes :=
  Numeral.padLeft width 48 (Numeral.ofInt number)

/- The written form of a time. -/
def text (milliseconds : Int) : Bytes :=
  let seconds := Int.tdiv milliseconds 1000
  let fraction := Int.tmod milliseconds 1000
  let date := dateOfDay (Int.fdiv seconds 86400)
  let second := Int.fmod seconds 86400
  padded 4 date.year ++ utf8 "-" ++
    padded 2 date.month ++ utf8 "-" ++
    padded 2 date.day ++ utf8 "T" ++
    padded 2 (second / 3600) ++ utf8 ":" ++
    padded 2 (second / 60 % 60) ++ utf8 ":" ++
    padded 2 (second % 60) ++ utf8 "." ++
    padded 3 fraction ++ utf8 "Z"

end Timestamp

end Rebac
