import Mathlib.Data.Rat.Defs
import Mathlib.Algebra.Order.Field.Rat
import Rebac.Decimal.Text

/-
  This file defines how a text is read as a value of JSON, by
  the grammar of that format and not by how this program
  writes it.

  Between quotes, bytes from 128 up are taken as they are. A
  text is refused where the format leaves its meaning open:
  if half of a surrogate pair stands alone, or if a name
  occurs twice in an object.

  Key definitions include:
    * `Json.Value`
    * `Json.readText?`
    * `Json.readNumber?`
    * `Json.readValue?`
    * `Json.read?`
-/

namespace Rebac

namespace Json

------------------------------------------------------------
-- Values
------------------------------------------------------------

/- What a text can stand for. -/
inductive Value where
  | null
  | flag (value : Bool)
  | number (value : ℚ)
  | text (bytes : Bytes)
  | array (items : List Value)
  | object (members : List (Bytes × Value))

/- White space between the parts of a value. -/
def isSpace (byte : UInt8) : Bool :=
  byte == 32 || byte == 9 || byte == 10 || byte == 13

/- A text from its first byte on that is no white space. -/
def skip (text : Bytes) : Bytes :=
  text.dropWhile isSpace

------------------------------------------------------------
-- Texts
------------------------------------------------------------

/-
  What stands between quotes: a byte, or a number of 16 bits
  that is part of a character.
-/
inductive Piece where
  | byte (byte : UInt8)
  | unit (number : Nat)
  deriving DecidableEq, Repr

/- Escapes of a single letter and what they stand for. -/
def letterEscapes : List (UInt8 × UInt8) :=
  [(34, 34), (92, 92), (47, 47), (98, 8), (102, 12), (110, 10),
    (114, 13), (116, 9)]

/- Reads pieces up to the closing quote. -/
def readPieces? (text : Bytes) : Option (List Piece × Bytes) :=
  match text with
  | [] => none
  | byte :: rest =>
      if byte = 34 then
        some ([], rest)
      else if byte < 32 then
        none
      else if byte = 92 then
        match rest with
        | [] => none
        | letter :: rest =>
            if letter = 117 then
              match rest with
              | a :: b :: c :: d :: rest =>
                  match Numeral.readDigits? 16 [a, b, c, d] with
                  | none => none
                  | some number =>
                      (readPieces? rest).map
                        fun (pieces, behind) =>
                          (.unit number :: pieces, behind)
              | _ => none
            else
              match letterEscapes.lookup letter with
              | none => none
              | some meaning =>
                  (readPieces? rest).map fun (pieces, behind) =>
                    (.byte meaning :: pieces, behind)
      else
        (readPieces? rest).map fun (pieces, behind) =>
          (.byte byte :: pieces, behind)

/- The bytes of a character. -/
def character (code : Nat) : Bytes :=
  String.utf8EncodeChar (Char.ofNat code)

/-
  The bytes of pieces. Numbers from 0xD800 to 0xDFFF are the
  halves of characters and have to stand in pairs.
-/
def join? : List Piece → Option Bytes
  | [] => some []
  | .byte byte :: rest => (join? rest).map (byte :: ·)
  | .unit high :: .unit low :: rest =>
      if high < 0xD800 ∨ 0xDFFF < high then
        (join? (.unit low :: rest)).map (character high ++ ·)
      else if high < 0xDC00 ∧ 0xDC00 ≤ low ∧ low ≤ 0xDFFF then
        (join? rest).map
          (character
            (0x10000 + 0x400 * (high - 0xD800) +
              (low - 0xDC00)) ++ ·)
      else
        none
  | .unit single :: rest =>
      if single < 0xD800 ∨ 0xDFFF < single then
        (join? rest).map (character single ++ ·)
      else
        none

/- Reads a text behind its opening quote. -/
def readText? (text : Bytes) : Option (Bytes × Bytes) :=
  match readPieces? text with
  | none => none
  | some (pieces, behind) => (join? pieces).map (·, behind)

------------------------------------------------------------
-- Numbers
------------------------------------------------------------

/- Reads digits, one at least. -/
def readRun? (text : Bytes) : Option (Bytes × Bytes) :=
  let (digits, rest) := Decimal.spanDigits text
  if digits = [] then none else some (digits, rest)

/- Reads digits without leading zeros. -/
def readWhole? (text : Bytes) : Option (Bytes × Bytes) :=
  match readRun? text with
  | none => none
  | some (digits, rest) =>
      if digits = [48] ∨ digits.head? ≠ some 48 then
        some (digits, rest)
      else
        none

/- Reads the digits behind a point, which may be left out. -/
def readFraction? (text : Bytes) : Option (Bytes × Bytes) :=
  match text with
  | 46 :: rest => readRun? rest
  | _ => some ([], text)

/- Reads an exponent, which may be left out. -/
def readExponent? (text : Bytes) : Option (Int × Bytes) :=
  match text with
  | [] => some (0, [])
  | mark :: rest =>
      if mark = 101 ∨ mark = 69 then
        let (negative, rest) := Decimal.spanSign rest
        (readRun? rest).map fun (digits, rest) =>
          let magnitude : Int := Numeral.value digits
          (if negative then -magnitude else magnitude, rest)
      else
        some (0, text)

/- Reads a number without its sign. -/
def readMagnitude? (text : Bytes) : Option (ℚ × Bytes) :=
  match readWhole? text with
  | none => none
  | some (whole, rest) =>
      match readFraction? rest with
      | none => none
      | some (fraction, rest) =>
          (readExponent? rest).map fun (exponent, rest) =>
            ((Numeral.value (whole ++ fraction) : ℚ) *
              10 ^ (exponent - fraction.length), rest)

/- Reads a number. -/
def readNumber? (text : Bytes) : Option (ℚ × Bytes) :=
  match text with
  | [] => none
  | first :: rest =>
      if first = 45 then
        (readMagnitude? rest).map fun (magnitude, rest) =>
          (-magnitude, rest)
      else
        readMagnitude? (first :: rest)

------------------------------------------------------------
-- Values
------------------------------------------------------------

/- Words that are values. -/
def words : List (Bytes × Value) :=
  [(utf8 "null", .null), (utf8 "true", .flag true),
    (utf8 "false", .flag false)]

/- Reads a word or a number. -/
def readPlain? (text : Bytes) : Option (Value × Bytes) :=
  let word := words.findSome? fun (word, value) =>
    (word.isPrefixOf? text).map (value, ·)
  word <|> (readNumber? text).map fun (number, rest) =>
    (.number number, rest)

section Rows

variable {Element : Type}

/-
  Reads elements with commas between them, up to a closing
  sign. The number bounds how many they may be.
-/
def readRow?
    (read? : Bytes → Option (Element × Bytes))
    (closing : UInt8) :
    Nat → Bytes → Option (List Element × Bytes)
  | 0, _ => none
  | bound + 1, text =>
      match read? text with
      | none => none
      | some (element, rest) =>
          match skip rest with
          | [] => none
          | sign :: rest =>
              if sign = closing then
                some ([element], rest)
              else if sign = 44 then
                (readRow? read? closing bound rest).map
                  fun (elements, rest) =>
                    (element :: elements, rest)
              else
                none

/-
  Reads what stands between brackets, behind the opening one.
  There are no more elements than bytes.
-/
def readGroup?
    (read? : Bytes → Option (Element × Bytes))
    (closing : UInt8)
    (text : Bytes) : Option (List Element × Bytes) :=
  match skip text with
  | [] => none
  | sign :: rest =>
      if sign = closing then
        some ([], rest)
      else
        readRow? read? closing text.length text

end Rows

/- Reads a name, a colon and a value. -/
def readMember?
    (read? : Bytes → Option (Value × Bytes))
    (text : Bytes) : Option ((Bytes × Value) × Bytes) :=
  match skip text with
  | 34 :: rest =>
      match readText? rest with
      | none => none
      | some (name, rest) =>
          match skip rest with
          | 58 :: rest =>
              (read? rest).map fun (value, rest) =>
                ((name, value), rest)
          | _ => none
  | _ => none

/- The object of some members, whose names are distinct. -/
def object? (members : List (Bytes × Value)) : Option Value :=
  if (members.map Prod.fst).Nodup then
    some (.object members)
  else
    none

/-
  Reads a value that the text begins with. The number bounds
  how deep values are nested in it.
-/
def readValue? : Nat → Bytes → Option (Value × Bytes)
  | 0, _ => none
  | depth + 1, text =>
      match skip text with
      | [] => none
      | sign :: rest =>
          if sign = 34 then
            (readText? rest).map fun (bytes, rest) =>
              (.text bytes, rest)
          else if sign = 91 then
            (readGroup? (readValue? depth) 93 rest).map
              fun (items, rest) => (.array items, rest)
          else if sign = 123 then
            match
              readGroup? (readMember? (readValue? depth)) 125
                rest with
            | none => none
            | some (members, rest) =>
                (object? members).map (·, rest)
          else
            readPlain? (sign :: rest)

/-
  Reads a text that is a single value. Each value in it is
  nested less deep than there are bytes.
-/
def read? (text : Bytes) : Option Value :=
  match readValue? text.length text with
  | none => none
  | some (value, rest) => if skip rest = [] then some value else none

end Json

end Rebac
