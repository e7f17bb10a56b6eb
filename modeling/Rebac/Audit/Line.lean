import Rebac.Numeral

/-
  This file defines how a record is written as one line: an
  object of JSON whose values are texts and numbers.

  A text is written between quotes. Its bytes stand for
  themselves, except for quotes, backslashes and control
  characters; so no text can end its own value or its line.

  Key definitions include:
    * `Line.escapeByte`
    * `Line.escape`
    * `Line.Content`
    * `Line.Member`
    * `Line.render`
-/

namespace Rebac

namespace Line

------------------------------------------------------------
-- Escaping
------------------------------------------------------------

/- The letters of control characters that have one. -/
def shortEscapes : List (UInt8 × UInt8) :=
  [(34, 34), (92, 92), (8, 98), (12, 102), (10, 110),
    (13, 114), (9, 116)]

/- How a byte is written inside a text. -/
def escapeByte (byte : UInt8) : Bytes :=
  match shortEscapes.lookup byte with
  | some letter => [92, letter]
  | none =>
      if byte < 32 then
        92 :: 117 :: Numeral.hexadecimal 4 byte.toNat
      else
        [byte]

/- How the bytes of a text are written. -/
def escape (text : Bytes) : Bytes :=
  text.flatMap escapeByte

------------------------------------------------------------
-- Objects
------------------------------------------------------------

/- What a member of an object holds. -/
inductive Content where
  | text (text : Bytes)
  | number (number : Int)
  deriving DecidableEq, Repr

/- A member of an object: a name and its content. -/
structure Member where
  name : Bytes
  content : Content
  deriving DecidableEq, Repr

/- A text between quotes. -/
def quote (text : Bytes) : Bytes :=
  34 :: escape text ++ [34]

/- The written form of a content. -/
def Content.render : Content → Bytes
  | .text written => quote written
  | .number value => Numeral.ofInt value

/- The written form of a member. -/
def Member.render (member : Member) : Bytes :=
  quote member.name ++ 58 :: member.content.render

/- Members with commas between them. -/
def renderMembers : List Member → Bytes
  | [] => []
  | [member] => member.render
  | member :: others => member.render ++ 44 :: renderMembers others

/- The written form of an object. -/
def render (members : List Member) : Bytes :=
  123 :: renderMembers members ++ [125]

end Line

end Rebac
