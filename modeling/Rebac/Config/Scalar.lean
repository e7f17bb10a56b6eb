import Rebac.Decimal.Text

/-
  This file defines how the values of settings are read.

  Numbers are written with decimal, hexadecimal (`0x`) or
  octal (`0`) digits; switches are words such as `yes` and
  `off`, in lower case, in capitals or with one capital.

  Key definitions include:
    * `Config.readBool?`
    * `Config.readWord?`
    * `Config.readRate?`
-/

namespace Rebac

namespace Config

------------------------------------------------------------
-- Switches
------------------------------------------------------------

/- A letter as a capital. -/
def upperByte (byte : UInt8) : UInt8 :=
  if 97 ≤ byte && byte ≤ 122 then byte - 32 else byte

/- A word with its first letter as a capital. -/
def capitalized : Bytes → Bytes
  | [] => []
  | first :: rest => upperByte first :: rest

/- The ways in which a word may be written. -/
def spellings (word : Bytes) : List Bytes :=
  [word, capitalized word, word.map upperByte]

/- Words that switch something on. -/
def onWords : List Bytes :=
  [utf8 "y", utf8 "yes", utf8 "true", utf8 "on"]

/- Words that switch something off. -/
def offWords : List Bytes :=
  [utf8 "n", utf8 "no", utf8 "false", utf8 "off"]

/- Reads a switch. -/
def readBool? (text : Bytes) : Option Bool :=
  if text ∈ onWords.flatMap spellings then
    some true
  else if text ∈ offWords.flatMap spellings then
    some false
  else
    none

------------------------------------------------------------
-- Numbers
------------------------------------------------------------

/- Reads a number whose base shows in its first digits. -/
def readMagnitude? : Bytes → Option Nat
  | [48] => some 0
  | 48 :: second :: rest =>
      if second = 120 ∨ second = 88 then
        Numeral.readDigits? 16 rest
      else
        Numeral.readDigits? 8 (second :: rest)
  | digits => Numeral.readDigits? 10 digits

/-
  Reads a number below 2^32. A plus sign may stand before it
  and white space behind it.
-/
def readWord? (text : Bytes) : Option Nat :=
  let written :=
    (text.reverse.dropWhile Bytes.isSpace).reverse
  let digits :=
    match written with
    | 43 :: rest => rest
    | _ => written
  (readMagnitude? digits).filter fun number => number < UInt32.size

------------------------------------------------------------
-- Rates
------------------------------------------------------------

/- Words for infinite numbers, without a sign. -/
def infinityWords : List Bytes :=
  [utf8 ".inf", utf8 ".Inf", utf8 ".INF"]

/- Words for what is not a number. -/
def nanWords : List Bytes :=
  [utf8 ".nan", utf8 ".NaN", utf8 ".NAN"]

/- Reads a number that need not be whole. -/
def readRate? (text : Bytes) : Option Float :=
  match Decimal.readFloat? text with
  | some number => some number
  | none =>
      let (negative, rest) := Decimal.spanSign text
      if rest ∈ infinityWords then
        some (if negative then -1.0 / 0.0 else 1.0 / 0.0)
      else if text ∈ nanWords then
        some (0.0 / 0.0)
      else
        none

end Config

end Rebac
