import Rebac.Cache.Shelf
import Rebac.Clock

/-
  This file defines bounded caches that forget the key that
  was used longest ago, and every key some time after it was
  put.

  Key definitions include:
    * `Recency`
    * `Recency.empty`
    * `Recency.get`
    * `Recency.put`
    * `Recency.remove`
    * `Recency.removeWhere`
    * `Recency.clear`
    * `Recency.entries`
    * `Recency.keys`
-/

namespace Rebac

------------------------------------------------------------
-- Caches
------------------------------------------------------------

/-
  A cache whose entries stand in the order of their use.
  Times are told in milliseconds. An expired entry stays until
  it is looked up.
-/
structure Recency (Value : Type) where
  capacity : Nat
  lifetime : Int
  shelf : Recency.Shelf Value := {}
  linked : shelf.Linked := by exact Recency.Shelf.linked_empty
  deriving Repr

namespace Recency

variable {Value : Type}

/- A cache without entries; it has room for at least one. -/
def empty
    (capacity : Nat)
    (lifetime : Int) : Recency Value :=
  { capacity := max capacity 1
    lifetime := lifetime }

/- The entries, the most recently used first. -/
def entries (cache : Recency Value) : List (Entry Value) :=
  cache.shelf.entries

/- The keys, the most recently used first. -/
def keys (cache : Recency Value) : List Bytes :=
  cache.entries.map (·.key)

/- The number of entries, expired ones included. -/
def size (cache : Recency Value) : Nat :=
  cache.entries.length

------------------------------------------------------------
-- Operations
------------------------------------------------------------

/-
  Looks up a key. An entry that is found becomes the most
  recently used one; an expired one is dropped instead.
-/
def get
    (cache : Recency Value)
    (now : Int)
    (key : Bytes) : Option Value × Recency Value :=
  let time := Clock.nanoseconds now
  ((cache.shelf.lookUp time key).1,
    { cache with
      shelf := (cache.shelf.lookUp time key).2
      linked := cache.linked.lookUp time key })

/-
  Puts a value under a key, which becomes the most recently
  used one. Where the key is new, the entries used longest
  ago make room.
-/
def put
    (cache : Recency Value)
    (now : Int)
    (key : Bytes)
    (value : Value) : Recency Value :=
  let entry : Entry Value :=
    { key := key
      value := value
      expires := Clock.after now cache.lifetime }
  { cache with
    shelf := cache.shelf.store cache.capacity entry
    linked := cache.linked.store cache.capacity entry }

/- Removes a key, and says whether it was there. -/
def remove
    (cache : Recency Value)
    (key : Bytes) : Bool × Recency Value :=
  ((cache.shelf.remove key).1,
    { cache with
      shelf := (cache.shelf.remove key).2
      linked := cache.linked.remove key })

/- Removes the keys that a test holds of, and counts them. -/
def removeWhere
    (cache : Recency Value)
    (test : Bytes → Bool) : Nat × Recency Value :=
  let kept := cache.shelf.keep fun key => !test key
  (cache.shelf.nodes.length - kept.nodes.length,
    { cache with
      shelf := kept
      linked := cache.linked.keep _ })

/- Removes all keys. -/
def clear (cache : Recency Value) : Recency Value :=
  { cache with
    shelf := {}
    linked := Shelf.linked_empty }

end Recency

end Rebac
