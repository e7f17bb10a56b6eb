import Mathlib.Algebra.Group.Nat.Defs
import Rebac.Numeral

/-
  This file proves that numbers are read as they are written.

  Key theorems include:
    * `Numeral.readNat?_ofNat`
    * `Numeral.readSize?_ofNat`
    * `Numeral.readInt64?_ofNat`
    * `Numeral.ofNat_leading`
    * `Numeral.readDigits?_hexadecimal`
-/

namespace Rebac

namespace Numeral

theorem toNat_digit
    {value : Nat}
    (hDigit : value < 10) :
    (digit value).toNat = 48 + value := by
  rw [digit, UInt8.toNat_ofNat']
  omega

theorem isDigit_digit
    {value : Nat}
    (hDigit : value < 10) :
    Bytes.isDigit (digit value) = true := by
  have hValue := toNat_digit hDigit
  simp only [Bytes.isDigit, Bool.and_eq_true, decide_eq_true_iff,
    UInt8.le_iff_toNat_le, hValue]
  exact ⟨Nat.le_add_right 48 value,
    show 48 + value ≤ 57 by omega⟩

/- A number is written with digits, one at least. -/
theorem ofNat_digits (number : Nat) :
    ofNat number ≠ [] ∧
      ∀ byte ∈ ofNat number, Bytes.isDigit byte = true := by
  fun_induction ofNat number with
  | case1 number hSmall =>
      exact ⟨List.cons_ne_nil _ _,
        List.forall_mem_singleton.mpr (isDigit_digit hSmall)⟩
  | case2 number hLarge ih =>
      refine ⟨by simp, List.forall_mem_append.mpr ⟨ih.2, ?_⟩⟩
      exact List.forall_mem_singleton.mpr
        (isDigit_digit (Nat.mod_lt number (by decide)))

theorem value_ofNat (number : Nat) :
    value (ofNat number) = number := by
  fun_induction ofNat number with
  | case1 number hSmall =>
      rw [value, List.foldl_cons, List.foldl_nil,
        toNat_digit hSmall]
      omega
  | case2 number hLarge ih =>
      have hDigit : number % 10 < 10 :=
        Nat.mod_lt number (by decide)
      rw [value, List.foldl_append, ← value, ih,
        List.foldl_cons, List.foldl_nil, toNat_digit hDigit]
      omega

/- No digit stands before the first one that counts. -/
theorem ofNat_leading (number : Nat) :
    ofNat number = [48] ∨ (ofNat number).head? ≠ some 48 := by
  fun_induction ofNat number with
  | case1 number hSmall =>
      rcases Nat.eq_zero_or_pos number with rfl | hPositive
      · exact .inl rfl
      · refine .inr fun hHead => ?_
        have hZero := congrArg UInt8.toNat (Option.some.inj hHead)
        rw [toNat_digit hSmall] at hZero
        change 48 + number = 48 at hZero
        omega
  | case2 number hLarge ih =>
      have hFirst : (ofNat (number / 10)).head? ≠ some 48 := by
        refine ih.resolve_left fun hZero => ?_
        -- Ten at least, so more than a zero stands before the
        -- last digit.
        have hRest := value_ofNat (number / 10)
        rw [hZero] at hRest
        change 0 = number / 10 at hRest
        omega
      refine .inr ?_
      cases hDigits : ofNat (number / 10) with
      | nil => exact absurd hDigits (ofNat_digits _).1
      | cons first others =>
          rw [hDigits] at hFirst
          exact hFirst

/- A number is read as it was written. -/
theorem readNat?_ofNat (number : Nat) :
    readNat? (ofNat number) = some number := by
  rcases ofNat_digits number with ⟨hSome, hDigits⟩
  rw [readNat?, if_pos ⟨hSome, List.all_eq_true.mpr hDigits⟩,
    value_ofNat]

/- So is a number of 64 bits. -/
theorem readSize?_ofNat
    {number : Nat}
    (hSize : number < UInt64.size) :
    readSize? (ofNat number) = some (UInt64.ofNat number) := by
  rw [readSize?, readNat?_ofNat]
  exact if_pos hSize

/- The sign of a negative number is no digit. -/
theorem minus_not_mem_ofNat (number : Nat) :
    45 ∉ ofNat number := by
  intro hMinus
  have hDigit := (ofNat_digits number).2 45 hMinus
  cases hDigit

theorem readInt?_ofNat (number : Nat) :
    readInt? (ofNat number) = some (number : Int) := by
  have hRead := readNat?_ofNat number
  have hMinus := minus_not_mem_ofNat number
  cases hDigits : ofNat number with
  | nil => exact absurd hDigits (ofNat_digits number).1
  | cons first others =>
      rw [hDigits] at hRead hMinus
      have hFirst : first ≠ 45 := by
        intro hSign
        exact hMinus (hSign ▸ List.mem_cons_self)
      rw [readInt?, if_neg hFirst, hRead]
      rfl

/- Larger numbers have too many bits. -/
theorem readInt64?_ofNat (number : Nat) :
    readInt64? (ofNat number) =
      if (number : Int) ≤ largestInt64 then
        some (number : Int)
      else
        none := by
  have hLeast : -largestInt64 - 1 ≤ (number : Int) := by
    unfold largestInt64
    omega
  rw [readInt64?, readBetween?, readInt?_ofNat]
  by_cases hSize : (number : Int) ≤ largestInt64
  · rw [if_pos hSize]
    simp [Option.filter, hLeast, hSize]
  · rw [if_neg hSize]
    simp [Option.filter, hSize]

------------------------------------------------------------
-- Hexadecimal Digits
------------------------------------------------------------

theorem digitValue?_hexDigit :
    ∀ value < 16, digitValue? (hexDigit value) = some value := by
  decide

/-
  The last hexadecimal digits of a number are read as what is
  left of it.
-/
theorem readDigits?_hexadecimal
    {width number : Nat}
    (hWidth : width ≠ 0) :
    readDigits? 16 (hexadecimal width number) =
      some (number % 16 ^ width) := by
  have hSome : hexadecimal width number ≠ [] := by
    cases width with
    | zero => exact absurd rfl hWidth
    | succ width => simp [hexadecimal]
  rw [readDigits?, if_neg hSome]
  clear hWidth hSome
  induction width generalizing number with
  | zero => simp [hexadecimal, Nat.mod_one]
  | succ width ih =>
      have hDigit : number % 16 < 16 := Nat.mod_lt _ (by decide)
      have hSplit :
          number % 16 ^ (width + 1) =
            16 * (number / 16 % 16 ^ width) + number % 16 := by
        rw [Nat.pow_succ', Nat.mod_mul, Nat.add_comm]
      rw [hexadecimal, List.foldlM_append, ih, hSplit]
      simp [digitValue?_hexDigit _ hDigit, Option.filter, hDigit]

end Numeral

end Rebac
