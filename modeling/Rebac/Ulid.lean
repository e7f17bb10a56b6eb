import Rebac.Bytes

/-
  This file defines the identifiers of models, tuples and
  log entries.

  An identifier has ten symbols for its time of creation and
  sixteen random ones, each of five bits. The symbols are in
  bytewise order, so identifiers of later milliseconds come
  later in that order, as long as fifty bits hold the time.

  Key definitions include:
    * `Ulid.alphabet`
    * `Ulid.symbols`
    * `Ulid.stream`
    * `Ulid.timePart`
    * `Ulid.randomPart`
    * `Ulid.generate`
    * `Ulid.IsValid`
    * `Ulid.decode?`
    * `IdSource`
    * `IdSource.draw`
-/

namespace Rebac

namespace Ulid

------------------------------------------------------------
-- Symbols
------------------------------------------------------------

/-
  Digits, then capital letters without `I`, `L`, `O` and
  `U`.
-/
def alphabet : Bytes :=
  utf8 "0123456789ABCDEFGHJKMNPQRSTVWXYZ"

/- The symbol of the last five bits of a word. -/
def symbol (word : UInt64) : UInt8 :=
  alphabet.getD (word &&& 31).toNat 48

/- The last `count` symbols of a word, the highest first. -/
def symbols : (count : Nat) → (word : UInt64) → Bytes
  | 0, _ => []
  | count + 1, word =>
      symbols count (word >>> 5) ++ [symbol word]

/-
  The first `count` symbols of two words, the lowest first.
  With each symbol five bits of the high word move into the
  low one.
-/
def stream : (count : Nat) → (low high : UInt64) → Bytes
  | 0, _, _ => []
  | count + 1, low, high =>
      symbol low ::
        stream count
          (low >>> 5 ||| (high &&& 31) <<< 59) (high >>> 5)

------------------------------------------------------------
-- Identifiers
------------------------------------------------------------

/-
  The symbols of a time in milliseconds, taken as a word in
  two's complement. Ten symbols show its last fifty bits.
-/
def timePart (milliseconds : Int) : Bytes :=
  symbols 10 (UInt64.ofInt milliseconds)

/-
  The symbols of two random words. Only sixteen bits of the
  high word are used.
-/
def randomPart (low high : UInt64) : Bytes :=
  stream 16 low high

/- The identifier of a time and two random words. -/
def generate
    (milliseconds : Int)
    (low high : UInt64) : Bytes :=
  timePart milliseconds ++ randomPart low high

/- An identifier is a text of twenty-six symbols. -/
def IsValid (text : Bytes) : Prop :=
  text.length = 26 ∧ ∀ byte ∈ text, byte ∈ alphabet

instance (text : Bytes) : Decidable (IsValid text) :=
  @instDecidableAnd _ _ _ (List.decidableBAll _ text)

/- The number that symbols stand for, the highest first. -/
def decode? (text : Bytes) : Option Nat :=
  text.foldlM
    (fun number byte =>
      (alphabet.idxOf? byte).map fun digit =>
        32 * number + digit)
    0

end Ulid

------------------------------------------------------------
-- Supplies
------------------------------------------------------------

/-
  A supply of random words and the number of pairs already
  drawn from it.
-/
structure IdSource where
  words : Nat → UInt64 × UInt64
  drawn : Nat := 0

namespace IdSource

/- Draws an identifier for a time. -/
def draw
    (source : IdSource)
    (milliseconds : Int) : Bytes × IdSource :=
  let (low, high) := source.words source.drawn
  (Ulid.generate milliseconds low high,
    { source with drawn := source.drawn + 1 })

end IdSource

end Rebac
