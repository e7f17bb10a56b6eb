import Rebac.Numeral

/-
  This file defines how texts are written in a document.

  A text may stand in single quotes, where a quote is
  doubled, in double quotes, where a backslash starts an
  escape, or without quotes. Blanks around a text without
  quotes do not belong to it, and a `#` behind a blank starts
  a comment.

  Key definitions include:
    * `Yaml.isBlank`
    * `Yaml.trim`
    * `Yaml.dropComment`
    * `Yaml.readSingle?`
    * `Yaml.readDouble?`
    * `Yaml.readQuoted?`
-/

namespace Rebac

namespace Yaml

------------------------------------------------------------
-- Blanks and Comments
------------------------------------------------------------

/- Blanks that separate texts on a line. -/
def isBlank (byte : UInt8) : Bool :=
  byte == 32 || byte == 9

/- A text without the blanks that it begins with. -/
def trimStart (text : Bytes) : Bytes :=
  text.dropWhile isBlank

/- A text without the blanks that it ends with. -/
def trimEnd (text : Bytes) : Bytes :=
  (text.reverse.dropWhile fun byte =>
    isBlank byte || byte == 13).reverse

/- A text without the blanks around it. -/
def trim (text : Bytes) : Bytes :=
  trimEnd (trimStart text)

/-
  A text up to its comment. The flag tells whether a `#`
  here starts one.
-/
def dropComment : (afterBlank : Bool) → Bytes → Bytes
  | _, [] => []
  | afterBlank, byte :: rest =>
      if afterBlank && byte == 35 then
        []
      else
        byte :: dropComment (isBlank byte) rest

/- Whether a text holds nothing but blanks and a comment. -/
def isVoid (text : Bytes) : Bool :=
  (trim (dropComment true text)).isEmpty

------------------------------------------------------------
-- Quotes
------------------------------------------------------------

/- Reads up to the closing single quote. -/
def readSingle? : Bytes → Option (Bytes × Bytes)
  | [] => none
  | 39 :: 39 :: rest =>
      (readSingle? rest).map fun (text, behind) =>
        (39 :: text, behind)
  | 39 :: rest => some ([], rest)
  | byte :: rest =>
      (readSingle? rest).map fun (text, behind) =>
        (byte :: text, behind)

/- Escapes of a single letter and what they stand for. -/
def letterEscapes : List (UInt8 × Bytes) :=
  [(48, [0]), (97, [7]), (98, [8]), (116, [9]), (9, [9]),
    (110, [10]), (118, [11]), (102, [12]), (114, [13]),
    (101, [27]), (32, [32]), (34, [34]), (47, [47]),
    (92, [92]), (78, utf8 "\u0085"), (95, utf8 "\u00a0"),
    (76, utf8 "\u2028"), (80, utf8 "\u2029")]

/- The number of hexadecimal digits behind an escape letter. -/
def hexEscapes : List (UInt8 × Nat) :=
  [(120, 2), (117, 4), (85, 8)]

/- Reads up to the closing double quote. -/
def readDouble? (text : Bytes) : Option (Bytes × Bytes) :=
  match text with
  | [] => none
  | 34 :: rest => some ([], rest)
  | 92 :: letter :: rest =>
      match letterEscapes.lookup letter with
      | some meaning =>
          (readDouble? rest).map fun (text, behind) =>
            (meaning ++ text, behind)
      | none =>
          match hexEscapes.lookup letter with
          | none => none
          | some width =>
              if rest.length < width then
                none
              else
                match Numeral.readDigits? 16 (rest.take width) with
                | none => none
                | some code =>
                    (readDouble? (rest.drop width)).map
                      fun (text, behind) =>
                        (String.utf8EncodeChar (Char.ofNat code) ++
                          text, behind)
  | byte :: rest =>
      (readDouble? rest).map fun (text, behind) =>
        (byte :: text, behind)
termination_by text.length
decreasing_by
  · exact Nat.lt_succ_of_lt (Nat.lt_succ_self rest.length)
  · exact Nat.lt_succ_of_lt
      (Nat.lt_succ_of_le (List.drop_sublist _ rest).length_le)
  · exact Nat.lt_succ_self rest.length

/-
  Reads a text in quotes, if the text begins with a quote.
  The outer result is `none` for a text without quotes.
-/
def readQuoted? (text : Bytes) :
    Option (Option (Bytes × Bytes)) :=
  match text with
  | 39 :: rest => some (readSingle? rest)
  | 34 :: rest => some (readDouble? rest)
  | _ => none

end Yaml

end Rebac
