import Rebac.Decimal.Shortest
import Rebac.Numeral

/-
  This file defines how floating-point numbers are written
  and read.

  A number is written with the fewest digits that read back.
  It is written positionally from a ten-thousandth up to ten
  to the sixteenth, and otherwise with an exponent. It can
  also be rounded to a fixed number of places.

  Key definitions include:
    * `Decimal.positional`
    * `Decimal.scientific`
    * `Decimal.text`
    * `Decimal.ofFloat`
    * `Decimal.fixed`
    * `Decimal.readFloat?`
-/

namespace Rebac

namespace Decimal

------------------------------------------------------------
-- Writing
------------------------------------------------------------

/- Puts a point behind the first digits of a text. -/
def withPoint (whole : Nat) (digits : Bytes) : Bytes :=
  if digits.length ≤ whole then
    digits
  else
    digits.take whole ++ 46 :: digits.drop whole

/-
  A decimal whose leading digit stands at the given power of
  ten, written without an exponent.
-/
def positional (digits : Bytes) (power : Int) : Bytes :=
  if power < 0 then
    48 :: 46 ::
      List.replicate (-power - 1).toNat 48 ++ digits
  else
    let zeros := (power + 1).toNat - digits.length
    withPoint (power + 1).toNat
      (digits ++ List.replicate zeros 48)

/-
  The same with an exponent, which has a sign and at least
  two digits.
-/
def scientific (digits : Bytes) (power : Int) : Bytes :=
  withPoint 1 digits ++ 101 ::
    (if power < 0 then 45 else 43) ::
    Numeral.padLeft 2 48 (Numeral.ofNat power.natAbs)

/- The written form of a decimal. -/
def text (decimal : Decimal) : Bytes :=
  let digits := Numeral.ofNat decimal.steps
  let power := decimal.exponent + digits.length - 1
  if -4 ≤ power ∧ power < 16 then
    positional digits power
  else
    scientific digits power

/- The written form of a floating-point number. -/
def ofFloat (number : Float) : Bytes :=
  let sign : Bytes :=
    if number.toBits.toNat < Binary.signPlace then []
    else [45]
  if number.isNaN then
    utf8 "nan"
  else if number.isInf then
    sign ++ utf8 "inf"
  else if number.toBits.toNat % Binary.signPlace = 0 then
    sign ++ utf8 "0"
  else
    sign ++ (Binary.ofFloat number).shortest.text

/-
  A quotient rounded to a whole number; a half goes to the
  even neighbour.
-/
def roundedQuotient (numerator denominator : Nat) : Nat :=
  let below := numerator / denominator
  let rest := 2 * (numerator % denominator)
  if denominator < rest ∨
      (rest = denominator ∧ below % 2 = 1) then
    below + 1
  else
    below

/-
  A number that is not negative, rounded to the given number
  of places.
-/
def fixed (places : Nat) (number : Float) : Bytes :=
  let binary := Binary.ofFloat number
  let steps := roundedQuotient
    (binary.significand * Nat.pow 2 binary.exponent.toNat *
      Nat.pow 10 places)
    (Nat.pow 2 (-binary.exponent).toNat)
  let digits :=
    Numeral.padLeft (places + 1) 48 (Numeral.ofNat steps)
  withPoint (digits.length - places) digits

------------------------------------------------------------
-- Reading
------------------------------------------------------------

/- Splits off the digits that a text begins with. -/
def spanDigits (text : Bytes) : Bytes × Bytes :=
  (text.takeWhile Bytes.isDigit, text.dropWhile Bytes.isDigit)

/- Splits off a sign; the result is true for a minus sign. -/
def spanSign : Bytes → Bool × Bytes
  | 45 :: rest => (true, rest)
  | 43 :: rest => (false, rest)
  | text => (false, text)

/- Reads an exponent, which may be left out. -/
def readExponent? (text : Bytes) : Option Int :=
  match text with
  | [] => some 0
  | mark :: rest =>
      if mark = 101 ∨ mark = 69 then
        let (negative, digits) := spanSign rest
        (Numeral.readNat? digits).map fun magnitude =>
          if negative then -(magnitude : Int) else magnitude
      else
        none

/-
  The number with the given digits and exponent. A number
  that is too large has none; one that is too small is zero.
-/
def assemble?
    (digits : Bytes)
    (exponent : Int) : Option Float :=
  let number := Numeral.value digits
  let power := exponent + (Numeral.ofNat number).length
  if number = 0 ∨ power < -400 then
    some 0.0
  else if power > 400 then
    none
  else
    let result :=
      Float.ofScientific number (exponent < 0) exponent.natAbs
    if result.isInf then none else some result

/- Reads a number that has no sign. -/
def readMagnitude? (text : Bytes) : Option Float :=
  let (whole, rest) := spanDigits text
  let (fraction, rest) :=
    match rest with
    | 46 :: behind => spanDigits behind
    | _ => ([], rest)
  if whole = [] ∧ fraction = [] then
    none
  else
    (readExponent? rest).bind fun exponent =>
      assemble? (whole ++ fraction)
        (exponent - (fraction.length : Int))

/-
  Reads a finite number: digits, perhaps with a point and an
  exponent. White space is allowed behind it.
-/
def readFloat? (text : Bytes) : Option Float :=
  let (negative, rest) := spanSign text
  let written :=
    (rest.reverse.dropWhile Bytes.isSpace).reverse
  (readMagnitude? written).map fun magnitude =>
    if negative then -magnitude else magnitude

end Decimal

end Rebac
