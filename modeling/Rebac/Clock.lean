import Rebac.Numeral

/-
  This file defines the times of a clock that counts
  nanoseconds in signed 64-bit numbers.

  Times are told in milliseconds. What the clock shows fits
  into its numbers. A time that is some while after another
  one may not fit, and then it wraps around.

  Key definitions include:
    * `Clock.nanoseconds`
    * `Clock.Fits`
    * `Clock.after`
    * `Clock.Course`

  Key theorems include:
    * `Clock.after_eq_iff`
    * `Clock.lt_after_iff`
-/

namespace Rebac

namespace Clock

/- The nanoseconds of some milliseconds. -/
def nanoseconds (time : Int) : Int :=
  time * 1000000

/- Whether the time some while after another one fits. -/
def Fits (time span : Int) : Prop :=
  -Numeral.largestInt64 - 1 ≤ nanoseconds time + nanoseconds span ∧
    nanoseconds time + nanoseconds span ≤ Numeral.largestInt64

instance (time span : Int) : Decidable (Fits time span) := by
  unfold Fits
  infer_instance

/- The time some while after another one, in nanoseconds. -/
def after (time span : Int) : Int :=
  (nanoseconds time + nanoseconds span).bmod UInt64.size

/-
  What the clock shows while something is going on: at its
  start, and at each later look.
-/
structure Course where
  start : Int
  shows : (look : Nat) → Int

/- The clock stands still. -/
def Course.still (now : Int) : Course :=
  { start := now
    shows := fun _ => now }

variable {now time span : Int}

theorem nanoseconds_le_iff :
    nanoseconds time ≤ nanoseconds now ↔ time ≤ now := by
  unfold nanoseconds
  omega

/- A time is right just if it fits. -/
theorem after_eq_iff :
    after time span = nanoseconds time + nanoseconds span ↔
      Fits time span := by
  unfold after Fits Numeral.largestInt64
  constructor
  · intro hSame
    have hLeast := Int.le_bmod
      (x := nanoseconds time + nanoseconds span)
      (m := UInt64.size) (by decide)
    have hGreatest := Int.bmod_lt
      (x := nanoseconds time + nanoseconds span)
      (m := UInt64.size) (by decide)
    rw [hSame, UInt64.size] at hLeast hGreatest
    omega
  · rintro ⟨hLeast, hGreatest⟩
    exact Int.bmod_eq_of_le_mul_two
      (by rw [UInt64.size]; omega) (by rw [UInt64.size]; omega)

/- Then it comes later than just the times that are closer. -/
theorem lt_after_iff (hFits : Fits time span) :
    nanoseconds now < after time span ↔ now - time < span := by
  rw [after_eq_iff.mpr hFits]
  unfold nanoseconds
  omega

end Clock

end Rebac
