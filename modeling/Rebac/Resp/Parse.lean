import Rebac.Resp.Value

/-
  This file defines how values are read off the bytes that
  have arrived from a server.

  A text that is the beginning of a value is incomplete, and
  more bytes may complete it. Nothing that follows can mend
  a malformed text.

  Key definitions include:
    * `Resp.Malformation`
    * `Resp.Fault`
    * `Resp.Fault.message`
    * `Resp.splitLine`
    * `Resp.parseMany`
    * `Resp.parseAt`
    * `Resp.parse`
    * `Resp.parseAll`
-/

namespace Rebac

namespace Resp

------------------------------------------------------------
-- Faults
------------------------------------------------------------

/- What can be wrong with a value. -/
inductive Malformation where
  | invalidInteger (text : Bytes)
  | negativeLength (number : Int)
  | negativeCount (number : Int)
  | unterminatedBulk
  | unknownKind (kind : UInt8)
  | tooDeep
  deriving DecidableEq, Repr

/- The wording of a malformation. -/
def Malformation.message : Malformation → Bytes
  | .invalidInteger text =>
      utf8 "invalid integer '" ++ text ++ utf8 "'"
  | .negativeLength number =>
      utf8 "negative bulk length " ++ Numeral.ofInt number
  | .negativeCount number =>
      utf8 "negative array length " ++ Numeral.ofInt number
  | .unterminatedBulk =>
      utf8 "bulk string not terminated by CRLF"
  | .unknownKind kind =>
      utf8 "unknown RESP type byte 0x" ++
        Numeral.hexadecimal 2 kind.toNat
  | .tooDeep => utf8 "RESP array nesting too deep"

/-
  Why no value was read: more bytes are needed, the bytes
  are wrong, or an array announces more elements than can
  be given room.
-/
inductive Fault where
  | incomplete
  | malformed (cause : Malformation)
  | oversized
  deriving DecidableEq, Repr

/- The wording of a fault. -/
def Fault.message : Fault → Bytes
  | .incomplete => utf8 "incomplete RESP value"
  | .malformed cause => cause.message
  | .oversized => utf8 "vector::reserve"

------------------------------------------------------------
-- Lines
------------------------------------------------------------

/- What comes before and after the first CR LF. -/
def splitLine : Bytes → Option (Bytes × Bytes)
  | 13 :: 10 :: rest => some ([], rest)
  | byte :: rest =>
      (splitLine rest).map fun (line, behind) =>
        (byte :: line, behind)
  | [] => none

/- Reads the number of a line. -/
def lineNumber (line : Bytes) : Except Fault Int :=
  match Numeral.readInt64? line with
  | some number => .ok number
  | none => .error (.malformed (.invalidInteger line))

/- Reads the contents of a bulk string of known length. -/
def takeBulk
    (length : Nat)
    (rest : Bytes) : Except Fault (Value × Bytes) :=
  let behind := rest.drop length
  let ending := behind.take 2
  if ending.length < 2 then
    .error .incomplete
  else if ending ≠ lineEnd then
    .error (.malformed .unterminatedBulk)
  else
    .ok (.bulk (rest.take length), behind.drop 2)

------------------------------------------------------------
-- Values
------------------------------------------------------------

/- A reader takes a value off the front of a text. -/
abbrev Reader (Result : Type) :=
  Bytes → Except Fault (Result × Bytes)

/- Reads a number of values, one after the other. -/
def parseMany
    (reader : Reader Value) :
    (count : Nat) → Reader (List Value)
  | 0, rest => .ok ([], rest)
  | count + 1, rest =>
      match reader rest with
      | .error fault => .error fault
      | .ok (value, behind) =>
          match parseMany reader count behind with
          | .error fault => .error fault
          | .ok (values, last) => .ok (value :: values, last)

/-
  The most elements that an array can be given room for. It
  is how many elements of 72 bytes fit into 2^63 - 1 bytes;
  less room than that is taken to be there.
-/
def largestCount : Int :=
  128102389400760775

/-
  Reads the rest of a value whose kind and line are known.
  The elements of an array are read by the given reader.
-/
def parseBody
    (element : Reader Value)
    (kind : UInt8)
    (line rest : Bytes) : Except Fault (Value × Bytes) :=
  if kind = 43 then
    .ok (.simple line, rest)
  else if kind = 45 then
    .ok (.error line, rest)
  else if kind = 58 then
    match lineNumber line with
    | .error fault => .error fault
    | .ok number => .ok (.integer number, rest)
  else if kind = 36 then
    match lineNumber line with
    | .error fault => .error fault
    | .ok number =>
        if number = -1 then
          .ok (.null, rest)
        else if number < 0 then
          .error (.malformed (.negativeLength number))
        else
          takeBulk number.toNat rest
  else if kind = 42 then
    match lineNumber line with
    | .error fault => .error fault
    | .ok number =>
        if number = -1 then
          .ok (.null, rest)
        else if number < 0 then
          .error (.malformed (.negativeCount number))
        else if number > largestCount then
          .error .oversized
        else
          match parseMany element number.toNat rest with
          | .error fault => .error fault
          | .ok (elements, behind) =>
              .ok (.array elements, behind)
  else
    .error (.malformed (.unknownKind kind))

/-
  Reads a value that may hold arrays of the given number of
  levels; with no level left even a value that is not an
  array is refused.
-/
def parseAt : (levels : Nat) → Reader Value
  | 0, _ => .error (.malformed .tooDeep)
  | _ + 1, [] => .error .incomplete
  | levels + 1, kind :: text =>
      match splitLine text with
      | none => .error .incomplete
      | some (line, rest) =>
          parseBody (parseAt levels) kind line rest

/- Values nest sixteen levels below the outermost one. -/
def nesting : Nat :=
  17

/- Reads one value and gives the bytes behind it. -/
def parse : Reader Value :=
  parseAt nesting

/-
  Reads a value off the front of what is left, up to `count`
  times, until nothing is left or a fault is met. An empty
  text is an incomplete value.
-/
def parseUpTo :
    (count : Nat) → Bytes → List (Value × Bytes) × Option Fault
  | 0, _ => ([], none)
  | count + 1, text =>
      match parse text with
      | .error fault => ([], some fault)
      | .ok (value, rest) =>
          if rest = [] then
            ([(value, rest)], none)
          else
            let (others, fault?) := parseUpTo count rest
            ((value, rest) :: others, fault?)

/-
  All values of a text, each with the bytes behind it, and
  the fault that ends them if one does. A value takes up at
  least one byte.
-/
def parseAll (text : Bytes) :
    List (Value × Bytes) × Option Fault :=
  parseUpTo (text.length + 1) text

end Resp

end Rebac
