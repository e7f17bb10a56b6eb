import Rebac.Valkey.Client

/-
  This file defines what a cache has to offer that several
  programs share.

  Every call may fail, and a failed call has no result. The
  state after it is given all the same: a client has learned
  something about its connection, for instance.

  Key definitions include:
    * `SharedCache`
    * `SharedCache.ofExchange`
-/

namespace Rebac

/-
  A type of caches that can be shared: looking up a key,
  putting a value for a number of seconds, deleting keys and
  deleting the keys that match a pattern.
-/
class SharedCache (Shared : Type) where
  get : (key : Bytes) →
    Shared → Option (Option Bytes) × Shared
  put : (key : Bytes) → (seconds : Nat) → (value : Bytes) →
    Shared → Option Unit × Shared
  delete : (keys : List Bytes) →
    Shared → Option UInt64 × Shared
  deleteMatching : (pattern : Bytes) →
    Shared → Option UInt64 × Shared

namespace SharedCache

/- A call that exchanges messages with a server. -/
def ofExchange
    {State Result : Type}
    (exchange : Valkey.Exchange State Result)
    (state : State) : Option Result × State :=
  ((exchange state).1.toOption, (exchange state).2)

/- A server's cache, as its client sees it. -/
instance : SharedCache Valkey.Client where
  get key := ofExchange (Valkey.get Valkey.Client.execute key)
  put key seconds value :=
    ofExchange
      (Valkey.setex Valkey.Client.execute key seconds value)
  delete keys :=
    ofExchange (Valkey.delete Valkey.Client.execute keys)
  deleteMatching pattern :=
    ofExchange (Valkey.Client.scanDelete pattern)

end SharedCache

end Rebac
