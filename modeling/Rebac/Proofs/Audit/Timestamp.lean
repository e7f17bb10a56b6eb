import Mathlib.Tactic.IntervalCases
import Rebac.Audit.Timestamp
import Rebac.Proofs.Bytes
import Rebac.Proofs.Numeral

/-
  This file proves that no two times have the same written
  form: the day can be counted back from its date, and the
  numbers of a time are separated by signs that occur in none
  of them.

  Key definitions include:
    * `Timestamp.dayOfDate`

  Key theorems include:
    * `Timestamp.dayOfDate_dateOfDay`
    * `Timestamp.padded_inj`
    * `Timestamp.text_inj`
-/

namespace Rebac

namespace Timestamp

------------------------------------------------------------
-- Dates
------------------------------------------------------------

/- The year of a cycle of 400 years that a day is in. -/
def yearOfCycle (day : Nat) : Nat :=
  (day - day / 1460 + day / 36524 - day / 146096) / 365

/- The days of a cycle before one of its years. -/
def daysBefore (year : Nat) : Nat :=
  365 * year + year / 4 - year / 100

/- The days of a year, which begins in March, before a month. -/
def daysBeforeMonth (month : Nat) : Nat :=
  (153 * month + 2) / 5

/- The day that a date stands for, with 1 January 1970 as zero. -/
def dayOfDate (date : Date) : Int :=
  let late := date.month ≤ 2
  let year := date.year - if late then 1 else 0
  let month := if late then date.month + 9 else date.month - 3
  146097 * (year / 400) + daysBefore (year % 400).toNat +
    daysBeforeMonth month + date.day - 1 - 719468

/-
  Within a cycle the centuries are counted by their days; the
  last day of a cycle is a leap day of its fourth century.
-/
theorem yearOfCycle_div
    {day : Nat}
    (hDay : day < 146097) :
    yearOfCycle day / 100 = day / 36524 - day / 146096 := by
  have hCentury : day / 36524 ≤ 4 := by omega
  unfold yearOfCycle
  generalize hCenturies : day / 36524 = centuries at *
  interval_cases centuries <;> omega

theorem yearOfCycle_lt
    {day : Nat}
    (hDay : day < 146097) :
    yearOfCycle day < 400 := by
  unfold yearOfCycle
  omega

/- A day is in the year that begins before it, at most 365 days. -/
theorem daysBefore_bounds
    {day : Nat}
    (hDay : day < 146097) :
    daysBefore (yearOfCycle day) ≤ day ∧
      day ≤ daysBefore (yearOfCycle day) + 365 := by
  have hCentury := yearOfCycle_div hDay
  have hLeap : yearOfCycle day / 4 ≤ day / 1460 := by
    unfold yearOfCycle
    omega
  unfold daysBefore
  generalize hYear : yearOfCycle day = year at *
  unfold yearOfCycle at hYear
  omega

/- A day is counted back from its date. -/
theorem dayOfDate_dateInCycle
    (cycle : Int)
    {day : Nat}
    (hDay : day < 146097) :
    dayOfDate (dateInCycle cycle day) =
      146097 * cycle + day - 719468 := by
  have hYear := yearOfCycle_lt hDay
  rcases daysBefore_bounds hDay with ⟨hFirst, hLast⟩
  -- Only the number of the year is left of how it is found.
  change dayOfDate
    (let year := yearOfCycle day
     let dayOfYear := day - daysBefore year
     let fromMarch := (5 * dayOfYear + 2) / 153
     let month :=
       if fromMarch < 10 then fromMarch + 3 else fromMarch - 9
     { year := 400 * cycle + year + if month ≤ 2 then 1 else 0
       month := month
       day := dayOfYear - daysBeforeMonth fromMarch + 1 }) = _
  generalize yearOfCycle day = year at *
  obtain ⟨dayOfYear, rfl⟩ := Nat.exists_eq_add_of_le hFirst
  have hOfYear : dayOfYear ≤ 365 := by omega
  have hDiv : (400 * cycle + year) / 400 = cycle := by omega
  have hMod : (400 * cycle + year) % 400 = year := by omega
  simp only [Nat.add_sub_cancel_left]
  have hMonth : (5 * dayOfYear + 2) / 153 ≤ 11 := by omega
  have hBefore :
      daysBeforeMonth ((5 * dayOfYear + 2) / 153) ≤ dayOfYear := by
    unfold daysBeforeMonth
    omega
  generalize (5 * dayOfYear + 2) / 153 = fromMarch at *
  by_cases hLate : fromMarch < 10
  · have hNot : ¬ fromMarch + 3 ≤ 2 := by omega
    simp only [dayOfDate, hLate, hNot, if_true, if_false,
      Int.add_zero, Int.sub_zero, hDiv, hMod, Int.toNat_natCast,
      Nat.add_sub_cancel]
    omega
  · have hJanuary : fromMarch - 9 ≤ 2 := by omega
    have hBack : fromMarch - 9 + 9 = fromMarch := by omega
    simp only [dayOfDate, hLate, hJanuary, if_true, if_false,
      Int.add_sub_cancel, hDiv, hMod, Int.toNat_natCast, hBack]
    omega

/- So no two days have the same date. -/
theorem dayOfDate_dateOfDay (day : Int) :
    dayOfDate (dateOfDay day) = day := by
  have hDay : (Int.fmod (day + 719468) 146097).toNat < 146097 := by
    have hLess := Int.fmod_lt_of_pos (day + 719468)
      (b := 146097) (by decide)
    omega
  have hSplit := Int.mul_fdiv_add_fmod (day + 719468) 146097
  have hPositive := Int.fmod_nonneg_of_pos (day + 719468)
    (b := 146097) (by decide)
  rw [dateOfDay, dayOfDate_dateInCycle _ hDay]
  omega

------------------------------------------------------------
-- Numbers
------------------------------------------------------------

/- A number is filled up with zeros on its left. -/
theorem padded_eq (width : Nat) (number : Int) :
    ∃ zeros,
      padded width number =
        List.replicate zeros 48 ++ Numeral.ofInt number :=
  ⟨_, rfl⟩

/- Zeros in front of a number do not count. -/
theorem value_zeros_append (zeros : Nat) (digits : Bytes) :
    Numeral.value (List.replicate zeros 48 ++ digits) =
      Numeral.value digits := by
  induction zeros with
  | zero => rfl
  | succ zeros ih =>
      rw [List.replicate_succ, List.cons_append, Numeral.value,
        List.foldl_cons]
      exact ih

/- Other signs than digits and minus are in no number. -/
theorem not_mem_padded
    {sign : UInt8}
    (hDigit : Bytes.isDigit sign = false)
    (hMinus : sign ≠ 45)
    (width : Nat)
    (number : Int) :
    sign ∉ padded width number := by
  have hDigits : ∀ magnitude, sign ∉ Numeral.ofNat magnitude := by
    intro magnitude hSign
    rw [(Numeral.ofNat_digits magnitude).2 sign hSign] at hDigit
    cases hDigit
  rcases padded_eq width number with ⟨zeros, hPadded⟩
  rw [hPadded, List.mem_append, not_or, List.mem_replicate]
  refine ⟨?_, ?_⟩
  · rintro ⟨_, rfl⟩
    cases hDigit
  · cases number with
    | ofNat magnitude => exact hDigits magnitude
    | negSucc predecessor =>
        change sign ∉ 45 :: Numeral.ofNat (predecessor + 1)
        rw [List.mem_cons, not_or]
        exact ⟨hMinus, hDigits _⟩

/- A minus sign is in the numbers below zero, and only there. -/
theorem minus_mem_padded (width predecessor : Nat) :
    45 ∈ padded width (Int.negSucc predecessor) := by
  rcases padded_eq width (Int.negSucc predecessor) with
    ⟨zeros, hPadded⟩
  rw [hPadded]
  exact List.mem_append_right _ List.mem_cons_self

theorem minus_not_mem_padded (width number : Nat) :
    45 ∉ padded width number := by
  rcases padded_eq width number with ⟨zeros, hPadded⟩
  rw [hPadded, List.mem_append, not_or, List.mem_replicate]
  exact ⟨fun hZero => absurd hZero.2 (by decide),
    Numeral.minus_not_mem_ofNat number⟩

/- Padded numbers are told apart like the numbers themselves. -/
theorem padded_inj
    {width : Nat}
    {first second : Int}
    (hSame : padded width first = padded width second) :
    first = second := by
  rcases padded_eq width first with ⟨zeros, hFirst⟩
  rcases padded_eq width second with ⟨others, hSecond⟩
  cases first with
  | ofNat magnitude =>
      cases second with
      | ofNat other =>
          have hValue := congrArg Numeral.value hSame
          rw [hFirst, hSecond, value_zeros_append,
            value_zeros_append] at hValue
          change Numeral.value (Numeral.ofNat magnitude) =
            Numeral.value (Numeral.ofNat other) at hValue
          rw [Numeral.value_ofNat, Numeral.value_ofNat] at hValue
          rw [hValue]
      | negSucc other =>
          exact absurd (hSame ▸ minus_mem_padded width other)
            (minus_not_mem_padded width magnitude)
  | negSucc magnitude =>
      cases second with
      | ofNat other =>
          exact absurd (hSame ▸ minus_mem_padded width magnitude)
            (minus_not_mem_padded width other)
      | negSucc other =>
          rw [hFirst, hSecond] at hSame
          have hDigits :=
            Bytes.behind_eq_of_append_cons
              (Numeral.minus_not_mem_ofNat (magnitude + 1))
              (Numeral.minus_not_mem_ofNat (other + 1)) hSame
          have hValue := congrArg Numeral.value hDigits
          rw [Numeral.value_ofNat, Numeral.value_ofNat] at hValue
          omega

/- A number ends where another sign comes behind it. -/
theorem padded_append_inj
    {width : Nat}
    {first second : Int}
    {sign : UInt8}
    {behind back : Bytes}
    (hDigit : Bytes.isDigit sign = false)
    (hMinus : sign ≠ 45)
    (hSame :
      padded width first ++ sign :: behind =
        padded width second ++ sign :: back) :
    first = second ∧ behind = back := by
  have hNumber :=
    Bytes.before_eq_of_append_cons
      (not_mem_padded hDigit hMinus width first)
      (not_mem_padded hDigit hMinus width second) hSame
  rw [hNumber] at hSame
  exact ⟨padded_inj hNumber,
    (List.cons_inj_right sign).mp (List.append_cancel_left hSame)⟩

------------------------------------------------------------
-- Times
------------------------------------------------------------

/- The written form of a date. -/
def dateText (date : Date) : Bytes :=
  (padded 4 date.year ++ 45 :: padded 2 date.month) ++
    45 :: padded 2 date.day

/- The written form of a time of day, to the milliseconds. -/
def clockText (second fraction : Int) : Bytes :=
  padded 2 (second / 3600) ++ 58 ::
    (padded 2 (second / 60 % 60) ++ 58 ::
      (padded 2 (second % 60) ++ 46 ::
        (padded 3 fraction ++ [90])))

theorem text_eq (milliseconds : Int) :
    text milliseconds =
      dateText
          (dateOfDay
            (Int.fdiv (Int.tdiv milliseconds 1000) 86400)) ++
        84 :: clockText
          (Int.fmod (Int.tdiv milliseconds 1000) 86400)
          (Int.tmod milliseconds 1000) := by
  have hMarks : utf8 "-" = [45] ∧ utf8 "T" = [84] ∧
      utf8 ":" = [58] ∧ utf8 "." = [46] ∧ utf8 "Z" = [90] :=
    ⟨rfl, rfl, rfl, rfl, rfl⟩
  simp [text, dateText, clockText, hMarks]

/-
  A date is read from its end, since a year may begin with a
  minus sign.
-/
theorem dateText_inj
    {first second : Date}
    (hSame : dateText first = dateText second) :
    first = second := by
  have hDay :=
    Bytes.behind_eq_of_append_cons
      (minus_not_mem_padded 2 first.day)
      (minus_not_mem_padded 2 second.day) hSame
  rw [dateText, dateText, hDay] at hSame
  have hRest := List.append_cancel_right hSame
  have hMonth :=
    Bytes.behind_eq_of_append_cons
      (minus_not_mem_padded 2 first.month)
      (minus_not_mem_padded 2 second.month) hRest
  rw [hMonth] at hRest
  have hYear := padded_inj (List.append_cancel_right hRest)
  rcases first with ⟨year, month, day⟩
  rcases second with ⟨otherYear, otherMonth, otherDay⟩
  rw [Date.mk.injEq]
  exact ⟨hYear, Int.ofNat.inj (padded_inj hMonth),
    Int.ofNat.inj (padded_inj hDay)⟩

theorem clockText_inj
    {second other fraction rest : Int}
    (hSame : clockText second fraction = clockText other rest) :
    second = other ∧ fraction = rest := by
  rcases padded_append_inj rfl (by decide) hSame with
    ⟨hHour, hMinutes⟩
  rcases padded_append_inj rfl (by decide) hMinutes with
    ⟨hMinute, hSeconds⟩
  rcases padded_append_inj rfl (by decide) hSeconds with
    ⟨hSecond, hFraction⟩
  rcases padded_append_inj rfl (by decide) hFraction with
    ⟨hMilliseconds, _⟩
  exact ⟨by omega, hMilliseconds⟩

/- No letter stands in a date. -/
theorem letter_not_mem_dateText (date : Date) :
    84 ∉ dateText date := by
  have hNumber (width : Nat) (number : Int) :
      84 ∉ padded width number :=
    not_mem_padded rfl (by decide) width number
  simp [dateText, hNumber]

/- Times are told apart by their written forms. -/
theorem text_inj
    {first second : Int} :
    text first = text second ↔ first = second := by
  constructor
  · intro hSame
    rw [text_eq, text_eq] at hSame
    have hDate :=
      Bytes.before_eq_of_append_cons
        (letter_not_mem_dateText _) (letter_not_mem_dateText _)
        hSame
    rw [hDate] at hSame
    have hClock :=
      (List.cons_inj_right 84).mp (List.append_cancel_left hSame)
    have hDay := congrArg dayOfDate (dateText_inj hDate)
    rw [dayOfDate_dateOfDay, dayOfDate_dateOfDay] at hDay
    rcases clockText_inj hClock with ⟨hSecond, hFraction⟩
    -- A number is put together from its quotient and the rest.
    have hSeconds : Int.tdiv first 1000 = Int.tdiv second 1000 := by
      rw [← Int.mul_fdiv_add_fmod (Int.tdiv first 1000) 86400,
        hDay, hSecond, Int.mul_fdiv_add_fmod]
    rw [← Int.mul_tdiv_add_tmod first 1000, hSeconds, hFraction,
      Int.mul_tdiv_add_tmod]
  · exact congrArg text

end Timestamp

end Rebac
