import Rebac.Cache.Hash

/-
  This file defines Bloom filters: sets of keys that may
  report a key that was never added, but never deny one that
  was.

  Key definitions include:
    * `Bloom`
    * `Bloom.slotCount`
    * `Bloom.hashCount`
    * `Bloom.blank`
    * `Bloom.empty`
    * `Bloom.slot`
    * `Bloom.isSet`
    * `Bloom.slots`
    * `Bloom.add`
    * `Bloom.mightContain`
    * `Bloom.clear`
    * `Bloom.fill`
    * `Bloom.falsePositiveRate`
-/

namespace Rebac

------------------------------------------------------------
-- Sizes
------------------------------------------------------------

/-
  A filter has slots, which are the bits of 64-bit words; the
  last word may have more bits than there are slots. It counts
  the keys that were added and the slots that are set.
-/
structure Bloom where
  hashes : Nat
  bits : Nat
  words : Array UInt64
  inserted : Nat := 0
  filled : Nat := 0
  enough : words.size = (bits + 63) / 64

namespace Bloom

/-
  The rate of false positives that a filter is made for; a
  rate that is not between zero and one counts as 0.01.
-/
def usableRate (rate : Float) : Float :=
  if 0.0 < rate && rate < 1.0 then rate else 0.01

/- The number of keys that a filter is made for. -/
def usableCount (expected : Nat) : Float :=
  Float.ofNat (max expected 1)

/-
  The number of slots that keeps the rate for the expected
  number of keys, and at least sixty-four.
-/
def slotCount (expected : Nat) (rate : Float) : Nat :=
  let natural := Float.log 2.0
  let ideal :=
    -(usableCount expected) * Float.log (usableRate rate) /
      (natural * natural)
  max ideal.ceil.toUInt64.toNat 64

/-
  The number of hashes that suits the number of slots, from
  one to ten.
-/
def hashCount (expected : Nat) (rate : Float) : Nat :=
  let slots := Float.ofNat (slotCount expected rate)
  let ideal := slots / usableCount expected * Float.log 2.0
  min (max ideal.ceil.toUInt64.toNat 1) 10

/- The filter of some size that holds no key. -/
def blank (bits hashes : Nat) : Bloom :=
  { hashes := hashes
    bits := bits
    words := Array.replicate ((bits + 63) / 64) 0
    enough := Array.size_replicate }

/- The filter for some number of keys that holds none yet. -/
def empty (expected : Nat) (rate : Float) : Bloom :=
  blank (slotCount expected rate) (hashCount expected rate)

------------------------------------------------------------
-- Slots
------------------------------------------------------------

/- The bit of a slot in its word. -/
def mask (slot : Nat) : UInt64 :=
  1 <<< UInt64.ofNat (slot % 64)

/- The word that a slot is in. -/
def word (bloom : Bloom) (slot : Nat) : UInt64 :=
  bloom.words.getD (slot / 64) 0

/- Whether a slot is set. -/
def isSet (bloom : Bloom) (slot : Nat) : Bool :=
  bloom.word slot &&& mask slot ≠ 0

/- Sets one slot. -/
def set (bloom : Bloom) (slot : Nat) : Bloom :=
  if bloom.isSet slot then
    bloom
  else
    { bloom with
      words :=
        bloom.words.setIfInBounds (slot / 64)
          (bloom.word slot ||| mask slot)
      filled := bloom.filled + 1
      enough := Array.size_setIfInBounds.trans bloom.enough }

/- All slots in turn. -/
def slots (bloom : Bloom) : Array Bool :=
  Array.ofFn fun slot : Fin bloom.bits => bloom.isSet slot

------------------------------------------------------------
-- Keys
------------------------------------------------------------

/-
  The number that the hash of the given index assigns to a
  key before it is reduced to a slot.
-/
def combined (key : Bytes) (index : Nat) : UInt64 :=
  let step := UInt64.ofNat index
  (Hash.fnv1a key).toUInt64 +
    step * (Hash.djb2 key).toUInt64 +
    step * step * (Hash.sdbm key).toUInt64 / 2

/- The slot that the hash of the given index assigns. -/
def slot
    (bloom : Bloom)
    (key : Bytes)
    (index : Nat) : Nat :=
  (combined key index).toNat % bloom.bits

/- The slots of a key, one for each hash. -/
def slotsOf (bloom : Bloom) (key : Bytes) : List Nat :=
  (List.range bloom.hashes).map (bloom.slot key)

/- Adds a key by setting all of its slots. -/
def add (bloom : Bloom) (key : Bytes) : Bloom :=
  let marked := (bloom.slotsOf key).foldl set bloom
  { marked with inserted := marked.inserted + 1 }

/- Whether all slots of a key are set. -/
def mightContain (bloom : Bloom) (key : Bytes) : Bool :=
  (bloom.slotsOf key).all bloom.isSet

/- Forgets all keys. -/
def clear (bloom : Bloom) : Bloom :=
  blank bloom.bits bloom.hashes

------------------------------------------------------------
-- Statistics
------------------------------------------------------------

/- The share of the slots that are set. -/
def fill (bloom : Bloom) : Float :=
  Float.ofNat bloom.filled / Float.ofNat bloom.bits

/- The rate of false positives to expect. -/
def falsePositiveRate (bloom : Bloom) : Float :=
  Float.pow bloom.fill (Float.ofNat bloom.hashes)

end Bloom

end Rebac
