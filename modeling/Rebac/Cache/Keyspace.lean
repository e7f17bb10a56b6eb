import Rebac.Cache.Glob
import Rebac.Cache.Shared

/-
  This file defines a shared cache that is held in memory:
  keys with their values, none of which expires.

  The cache records every call, and every call fails while
  it is unavailable.

  Key definitions include:
    * `Keyspace`
    * `Keyspace.find?`
    * `Keyspace.insert`
    * `Keyspace.removeAll`
    * `Keyspace.removeMatching`
    * `Keyspace.sorted`
-/

namespace Rebac

namespace Keyspace

/- A call to a shared cache. -/
inductive Call where
  | get (key : Bytes)
  | put (key : Bytes) (seconds : Nat) (value : Bytes)
  | delete (keys : List Bytes)
  | deleteMatching (pattern : Bytes)
  deriving DecidableEq, Repr

end Keyspace

/-
  Keys with their values, each key once, and the calls so
  far, the latest last.
-/
structure Keyspace where
  dialect : Glob.Dialect
  entries : List (Bytes × Bytes) := []
  available : Bool := true
  calls : List Keyspace.Call := []
  deriving Repr

namespace Keyspace

------------------------------------------------------------
-- Contents
------------------------------------------------------------

/- The value of a key. -/
def find?
    (keyspace : Keyspace)
    (key : Bytes) : Option Bytes :=
  (keyspace.entries.find? fun entry => entry.1 = key).map
    Prod.snd

/- Keeps the keys that a test holds of. -/
def keep
    (keyspace : Keyspace)
    (test : Bytes → Bool) : Keyspace :=
  { keyspace with
    entries := keyspace.entries.filter fun entry => test entry.1 }

/- Puts a value under a key. -/
def insert
    (keyspace : Keyspace)
    (key value : Bytes) : Keyspace :=
  { keyspace with
    entries :=
      (key, value) ::
        (keyspace.keep fun other => other ≠ key).entries }

/- Keys that a test does not hold of are removed and counted. -/
def retain
    (keyspace : Keyspace)
    (test : Bytes → Bool) : UInt64 × Keyspace :=
  let kept := keyspace.keep test
  (UInt64.ofNat (keyspace.entries.length - kept.entries.length),
    kept)

/- Removes some keys. -/
def removeAll
    (keyspace : Keyspace)
    (keys : List Bytes) : UInt64 × Keyspace :=
  keyspace.retain fun key => !keys.contains key

/- Removes the keys that match a pattern. -/
def removeMatching
    (keyspace : Keyspace)
    (pattern : Bytes) : UInt64 × Keyspace :=
  keyspace.retain fun key =>
    !decide (Glob.Matches keyspace.dialect pattern key)

/- The entries in bytewise order of their keys. -/
def sorted (keyspace : Keyspace) : List (Bytes × Bytes) :=
  keyspace.entries.mergeSort fun first second =>
    first.1 ≤ second.1

------------------------------------------------------------
-- Calls
------------------------------------------------------------

/- Records a call, and makes it if the cache is available. -/
def call
    {Result : Type}
    (request : Call)
    (action : Keyspace → Result × Keyspace)
    (keyspace : Keyspace) : Option Result × Keyspace :=
  let recorded :=
    { keyspace with calls := keyspace.calls ++ [request] }
  if keyspace.available then
    let (result, changed) := action recorded
    (some result, changed)
  else
    (none, recorded)

instance : SharedCache Keyspace where
  get key :=
    call (.get key) fun keyspace =>
      (keyspace.find? key, keyspace)
  put key seconds value :=
    call (.put key seconds value) fun keyspace =>
      ((), keyspace.insert key value)
  delete keys :=
    call (.delete keys) fun keyspace => keyspace.removeAll keys
  deleteMatching pattern :=
    call (.deleteMatching pattern) fun keyspace =>
      keyspace.removeMatching pattern

end Keyspace

end Rebac
