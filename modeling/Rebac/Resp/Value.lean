import Rebac.Numeral

/-
  This file defines the values of the wire protocol of cache
  servers, and how a command is written for the server.

  A value starts with a byte for its kind and a line. The
  line ends with CR LF, and so do the contents of a bulk
  string, whose length the line gives. A command is an array
  of bulk strings.

  Key definitions include:
    * `Resp.Value`
    * `Resp.Value.text`
    * `Resp.Value.number`
    * `Resp.Value.same`
    * `Resp.lineEnd`
    * `Resp.bulk`
    * `Resp.command`
-/

namespace Rebac

namespace Resp

------------------------------------------------------------
-- Values
------------------------------------------------------------

/- What a server answers with. -/
inductive Value where
  | null
  | simple (text : Bytes)
  | error (text : Bytes)
  | integer (number : Int)
  | bulk (text : Bytes)
  | array (elements : List Value)
  deriving Repr, Inhabited

namespace Value

/- The text of a value; values without one have no bytes. -/
def text : Value → Bytes
  | .simple text => text
  | .error text => text
  | .bulk text => text
  | _ => []

/- The number of a value; values without one count as zero. -/
def number : Value → Int
  | .integer number => number
  | _ => 0

mutual

/- Whether two values are the same one. -/
def same : Value → Value → Bool
  | .null, .null => true
  | .simple text, .simple other => text = other
  | .error text, .error other => text = other
  | .integer number, .integer other => number = other
  | .bulk text, .bulk other => text = other
  | .array elements, .array others => sameAll elements others
  | _, _ => false

/- Whether several values are the same ones in the same order. -/
def sameAll : List Value → List Value → Bool
  | [], [] => true
  | element :: elements, other :: others =>
      same element other && sameAll elements others
  | _, _ => false

end

mutual

theorem same_iff :
    ∀ value other : Value, same value other = true ↔ value = other
  | .null, other => by cases other <;> simp [same]
  | .simple text, other => by cases other <;> simp [same]
  | .error text, other => by cases other <;> simp [same]
  | .integer number, other => by cases other <;> simp [same]
  | .bulk text, other => by cases other <;> simp [same]
  | .array elements, other => by
      cases other <;> simp [same, sameAll_iff elements]

theorem sameAll_iff :
    ∀ elements others : List Value,
      sameAll elements others = true ↔ elements = others
  | [], others => by cases others <;> simp [sameAll]
  | element :: elements, others => by
      cases others <;>
        simp [sameAll, same_iff element, sameAll_iff elements]

end

instance : DecidableEq Value :=
  fun value other => decidable_of_iff _ (same_iff value other)

end Value

------------------------------------------------------------
-- Writing
------------------------------------------------------------

/- The end of a line: CR LF. -/
def lineEnd : Bytes :=
  [13, 10]

/- A line that gives a kind of value and a number. -/
def header (kind : UInt8) (number : Nat) : Bytes :=
  kind :: Numeral.ofNat number ++ lineEnd

/- A bulk string. -/
def bulk (text : Bytes) : Bytes :=
  header 36 text.length ++ text ++ lineEnd

/- A command with its arguments. -/
def command (arguments : List Bytes) : Bytes :=
  header 42 arguments.length ++ arguments.flatMap bulk

end Resp

end Rebac
