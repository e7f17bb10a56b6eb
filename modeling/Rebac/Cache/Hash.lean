import Rebac.Bytes

/-
  This file defines the three hashes of a key that the
  filter of cached keys is built on.

  Key definitions include:
    * `Hash.fnv1a`
    * `Hash.djb2`
    * `Hash.sdbm`
-/

namespace Rebac

namespace Hash

/- The 32-bit hash that mixes in each byte before a product. -/
def fnv1a (key : Bytes) : UInt32 :=
  key.foldl
    (fun hash byte => (hash ^^^ byte.toUInt32) * 16777619)
    2166136261

/- The 32-bit hash that multiplies by thirty-three. -/
def djb2 (key : Bytes) : UInt32 :=
  key.foldl
    (fun hash byte => hash <<< 5 + hash + byte.toUInt32)
    5381

/- The 32-bit hash that multiplies by 65599. -/
def sdbm (key : Bytes) : UInt32 :=
  key.foldl
    (fun hash byte =>
      byte.toUInt32 + hash <<< 6 + hash <<< 16 - hash)
    0

end Hash

end Rebac
