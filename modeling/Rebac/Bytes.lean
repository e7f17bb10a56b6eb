/-
  This file defines byte strings, the texts that names,
  messages, model sources and wire data are made of.

  A text need not be valid UTF-8: every length, offset and
  comparison counts bytes.

  Key definitions include:
    * `Bytes`
    * `utf8`
    * `Bytes.isDigit`
    * `Bytes.isLetter`
    * `Bytes.isWord`
    * `Bytes.IsName`
    * `Bytes.lower`
    * `Bytes.splitFirst`
    * `Bytes.split`
    * `Bytes.lines`
    * `Bytes.sort`
    * `Bytes.sortUnique`
-/

------------------------------------------------------------
-- Byte Strings
------------------------------------------------------------

namespace Rebac

/- A text is a list of bytes; lists compare bytewise. -/
abbrev Bytes :=
  List UInt8

/- Texts are equal where their bytes are. -/
instance : LawfulBEq Bytes :=
  inferInstance

/- The bytes of a text in UTF-8. -/
def utf8 (text : String) : Bytes :=
  text.toList.flatMap String.utf8EncodeChar

namespace Bytes

------------------------------------------------------------
-- Byte Classes
------------------------------------------------------------

/- Decimal digits. -/
def isDigit (byte : UInt8) : Bool :=
  48 ≤ byte && byte ≤ 57

/- Letters of the English alphabet, in either case. -/
def isLetter (byte : UInt8) : Bool :=
  (65 ≤ byte && byte ≤ 90) || (97 ≤ byte && byte ≤ 122)

/- Bytes that a name is made of: letters, digits and `_`. -/
def isWord (byte : UInt8) : Bool :=
  isLetter byte || isDigit byte || byte == 95

/- A name is a nonempty run of word bytes. -/
def IsName (text : Bytes) : Prop :=
  text ≠ [] ∧ ∀ byte ∈ text, isWord byte = true

instance (text : Bytes) : Decidable (IsName text) :=
  @instDecidableAnd _ _ _ (List.decidableBAll _ text)

/- White space as text streams see it: space, and tab to CR. -/
def isSpace (byte : UInt8) : Bool :=
  byte == 32 || (9 ≤ byte && byte ≤ 13)

/- The lower-case form of a byte; only letters change. -/
def lowerByte (byte : UInt8) : UInt8 :=
  if 65 ≤ byte && byte ≤ 90 then byte + 32 else byte

/- A text with its letters in lower case. -/
def lower (text : Bytes) : Bytes :=
  text.map lowerByte

------------------------------------------------------------
-- Splitting
------------------------------------------------------------

/-
  The parts before and after the first separator, or `none`
  where the separator does not occur.
-/
def splitFirst
    (separator : UInt8) :
    Bytes → Option (Bytes × Bytes)
  | [] => none
  | byte :: rest =>
      if byte = separator then
        some ([], rest)
      else
        (splitFirst separator rest).map
          fun (before, after) => (byte :: before, after)

/-
  The parts of a text between separators. There is one part
  more than there are separators, so the empty text has one
  empty part.
-/
def split (separator : UInt8) : Bytes → List Bytes
  | [] => [[]]
  | byte :: rest =>
      if byte = separator then
        [] :: split separator rest
      else
        match split separator rest with
        | [] => [[byte]]
        | part :: others => (byte :: part) :: others

/- The lines of a text, without their newlines. -/
def lines (text : Bytes) : List Bytes :=
  split 10 text

------------------------------------------------------------
-- Order
------------------------------------------------------------

/- Texts in bytewise order, the shorter of two first. -/
def sort (texts : List Bytes) : List Bytes :=
  texts.mergeSort fun first second => first ≤ second

/- Drops each element that equals the one before it. -/
def dropRepeats : List Bytes → List Bytes
  | first :: second :: rest =>
      if first = second then
        dropRepeats (second :: rest)
      else
        first :: dropRepeats (second :: rest)
  | texts => texts

/- The distinct texts of a list in bytewise order. -/
def sortUnique (texts : List Bytes) : List Bytes :=
  dropRepeats (sort texts)

end Bytes

end Rebac
