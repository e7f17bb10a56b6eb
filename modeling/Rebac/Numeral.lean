import Rebac.Bytes

/-
  This file defines how whole numbers are written and read.

  A number has one written form: decimal digits without
  leading zeros, after a minus sign if it is negative.
  Reading is more lenient and allows leading zeros, but no
  plus sign, no blanks and nothing after the digits.

  Key definitions include:
    * `Numeral.ofNat`
    * `Numeral.ofInt`
    * `Numeral.hexadecimal`
    * `Numeral.padLeft`
    * `Numeral.readDigits?`
    * `Numeral.readNat?`
    * `Numeral.readInt?`
    * `Numeral.readInt64?`
    * `Numeral.readSize?`
-/

namespace Rebac

namespace Numeral

------------------------------------------------------------
-- Writing
------------------------------------------------------------

/- The byte of a decimal digit. -/
def digit (value : Nat) : UInt8 :=
  UInt8.ofNat (48 + value)

/- The decimal digits of a number, without leading zeros. -/
def ofNat (number : Nat) : Bytes :=
  if number < 10 then
    [digit number]
  else
    ofNat (number / 10) ++ [digit (number % 10)]

/- The decimal form of an integer. -/
def ofInt : Int → Bytes
  | .ofNat magnitude => ofNat magnitude
  | .negSucc predecessor => 45 :: ofNat (predecessor + 1)

/- The byte of a hexadecimal digit, letters in lower case. -/
def hexDigit (value : Nat) : UInt8 :=
  if value < 10 then
    UInt8.ofNat (48 + value)
  else
    UInt8.ofNat (87 + value)

/- The last `width` hexadecimal digits of a number. -/
def hexadecimal : (width : Nat) → (number : Nat) → Bytes
  | 0, _ => []
  | width + 1, number =>
      hexadecimal width (number / 16) ++
        [hexDigit (number % 16)]

/- Fills a text on its left up to the given width. -/
def padLeft
    (width : Nat)
    (filler : UInt8)
    (text : Bytes) : Bytes :=
  List.replicate (width - text.length) filler ++ text

------------------------------------------------------------
-- Reading
------------------------------------------------------------

/- The value of a digit; letters go on after nine. -/
def digitValue? (byte : UInt8) : Option Nat :=
  if Bytes.isDigit byte then
    some (byte.toNat - 48)
  else if Bytes.isLetter byte then
    some ((Bytes.lowerByte byte).toNat - 87)
  else
    none

/- Reads a nonempty run of digits of a base. -/
def readDigits?
    (base : Nat)
    (digits : Bytes) : Option Nat :=
  if digits = [] then
    none
  else
    digits.foldlM
      (fun number byte =>
        ((digitValue? byte).filter (· < base)).map
          fun digit => base * number + digit)
      0

/- The number that a run of decimal digits stands for. -/
def value (digits : Bytes) : Nat :=
  digits.foldl (fun sum byte => 10 * sum + (byte.toNat - 48)) 0

/- Reads a nonempty run of decimal digits. -/
def readNat? (text : Bytes) : Option Nat :=
  if text ≠ [] ∧ text.all Bytes.isDigit then
    some (value text)
  else
    none

/- Reads decimal digits, perhaps after a minus sign. -/
def readInt? : Bytes → Option Int
  | [] => none
  | first :: rest =>
      if first = 45 then
        (readNat? rest).map fun magnitude => -(magnitude : Int)
      else
        (readNat? (first :: rest)).map Int.ofNat

/- Reads an integer between two bounds, both included. -/
def readBetween?
    (least greatest : Int)
    (text : Bytes) : Option Int :=
  (readInt? text).filter fun number =>
    least ≤ number && number ≤ greatest

/- The largest signed 64-bit number. -/
def largestInt64 : Int :=
  9223372036854775807

/- Reads a signed 64-bit number. -/
def readInt64? (text : Bytes) : Option Int :=
  readBetween? (-largestInt64 - 1) largestInt64 text

/- Reads a signed 32-bit number. -/
def readInt32? (text : Bytes) : Option Int :=
  readBetween? (-2147483648) 2147483647 text

/- Reads an unsigned 64-bit number; a minus sign is refused. -/
def readSize? (text : Bytes) : Option UInt64 :=
  match readNat? text with
  | none => none
  | some number =>
      if number < UInt64.size then
        some (UInt64.ofNat number)
      else
        none

end Numeral

end Rebac
