import Rebac.Cache.Bloom
import Rebac.Cache.Keyspace
import Rebac.Cache.Recency
import Rebac.Tuple.Key

/-
  This file defines the cache of decisions.

  A decision is kept near, in a bounded cache of its own. An
  allowed one is also put into the shared cache, if there is
  one, and its key is added to a filter: keys that the
  filter denies are not looked up in the shared cache. When
  a call to the shared cache fails, the cache goes on
  without it.

  Key definitions include:
    * `PermissionCache.Settings`
    * `PermissionCache.Source`
    * `PermissionCache.Tallies`
    * `PermissionCache`
    * `PermissionCache.keyText`
    * `PermissionCache.empty`
    * `PermissionCache.get`
    * `PermissionCache.set`
    * `PermissionCache.invalidate`
    * `PermissionCache.invalidateUser`
    * `PermissionCache.invalidateObject`
    * `PermissionCache.invalidateAll`
    * `PermissionCache.clear`
    * `PermissionCache.statistics`
-/

namespace Rebac

namespace PermissionCache

------------------------------------------------------------
-- Types
------------------------------------------------------------

/-
  The sizes and lifetimes of a cache. Near decisions live
  for milliseconds, shared ones for seconds.
-/
structure Settings where
  nearItems : Nat
  nearLifetime : Nat
  sharedLifetime : Nat
  filterItems : Nat
  filterRate : Float
  keyStart : Bytes
  deriving Repr

/- Where a decision was found. -/
inductive Source where
  | near
  | shared
  deriving DecidableEq, Repr

/- The name of a source; `none` stands for an evaluation. -/
def sourceName : Option Source → Bytes
  | none => utf8 "none"
  | some .near => utf8 "l1"
  | some .shared => utf8 "l2"

/- What happened since the cache was last cleared. -/
structure Tallies where
  nearHits : Nat := 0
  nearMisses : Nat := 0
  sharedHits : Nat := 0
  sharedMisses : Nat := 0
  sharedErrors : Nat := 0
  filterDenials : Nat := 0
  sets : Nat := 0
  invalidations : Nat := 0
  deriving DecidableEq, Repr

end PermissionCache

/- A cache of decisions with its parts. -/
structure PermissionCache (Shared : Type) where
  settings : PermissionCache.Settings
  near : Recency Bool
  filter : Bloom
  shared : Option Shared
  tallies : PermissionCache.Tallies := {}

namespace PermissionCache

variable {Shared : Type}

/- A cache without decisions in front of a shared cache. -/
def empty
    (settings : Settings)
    (shared : Option Shared) : PermissionCache Shared :=
  { settings := settings
    near := Recency.empty settings.nearItems settings.nearLifetime
    filter := Bloom.empty settings.filterItems settings.filterRate
    shared := shared }

------------------------------------------------------------
-- Keys
------------------------------------------------------------

/- The sign between the parts of a key. -/
def bar : UInt8 :=
  124

/- The text that a decision is kept under. -/
def keyText (key : TupleKey) : Bytes :=
  key.user ++ bar :: key.relation ++ bar :: key.object

/- The text that the keys of a user start with. -/
def userStart (user : Bytes) : Bytes :=
  user ++ [bar]

/- The text that the keys of an object end with. -/
def objectEnd (object : Bytes) : Bytes :=
  bar :: object

/- The text that an allowed decision is shared as. -/
def allowedText : Bytes :=
  utf8 "1"

------------------------------------------------------------
-- Steps
------------------------------------------------------------

/- Counts something. -/
def tally
    (cache : PermissionCache Shared)
    (change : Tallies → Tallies) : PermissionCache Shared :=
  { cache with tallies := change cache.tallies }

/- Counts a failed call to the shared cache. -/
def tallyError
    (cache : PermissionCache Shared) : PermissionCache Shared :=
  cache.tally fun tallies =>
    { tallies with sharedErrors := tallies.sharedErrors + 1 }

/- Counts an invalidation. -/
def tallyInvalidation
    (cache : PermissionCache Shared) : PermissionCache Shared :=
  cache.tally fun tallies =>
    { tallies with invalidations := tallies.invalidations + 1 }

/-
  Makes a call to the shared cache, if there is one, and
  counts its failure.
-/
def callShared
    {Result : Type}
    (call : Shared → Option Result × Shared)
    (cache : PermissionCache Shared) : PermissionCache Shared :=
  match cache.shared with
  | none => cache
  | some shared =>
      let (result, shared) := call shared
      let cache := { cache with shared := some shared }
      match result with
      | some _ => cache
      | none => cache.tallyError

variable [SharedCache Shared]

/- Deletes the shared keys that match a pattern. -/
def deleteShared
    (pattern : Bytes)
    (cache : PermissionCache Shared) : PermissionCache Shared :=
  cache.callShared (SharedCache.deleteMatching pattern)

------------------------------------------------------------
-- Decisions
------------------------------------------------------------

/-
  Looks up a key in the shared cache. A decision that is
  found there is also kept near from then on.
-/
def getShared
    (now : Int)
    (text : Bytes)
    (shared : Shared)
    (cache : PermissionCache Shared) :
    Option (Bool × Source) × PermissionCache Shared :=
  let (result, shared) :=
    SharedCache.get (cache.settings.keyStart ++ text) shared
  let cache := { cache with shared := some shared }
  match result with
  | none =>
      (none, cache.tallyError.tally fun tallies =>
        { tallies with sharedMisses := tallies.sharedMisses + 1 })
  | some none =>
      (none, cache.tally fun tallies =>
        { tallies with sharedMisses := tallies.sharedMisses + 1 })
  | some (some value) =>
      let allowed := decide (value = allowedText)
      let cache := cache.tally fun tallies =>
        { tallies with sharedHits := tallies.sharedHits + 1 }
      (some (allowed, .shared),
        { cache with near := cache.near.put now text allowed })

/- Looks up a decision. -/
def get
    (now : Int)
    (key : TupleKey)
    (cache : PermissionCache Shared) :
    Option (Bool × Source) × PermissionCache Shared :=
  let text := keyText key
  let denied := !cache.filter.mightContain text
  let cache := cache.tally fun tallies =>
    { tallies with
      filterDenials :=
        tallies.filterDenials + if denied then 1 else 0 }
  let (found, near) := cache.near.get now text
  let cache := { cache with near := near }
  match found with
  | some allowed =>
      (some (allowed, .near), cache.tally fun tallies =>
        { tallies with nearHits := tallies.nearHits + 1 })
  | none =>
      let cache := cache.tally fun tallies =>
        { tallies with nearMisses := tallies.nearMisses + 1 }
      match denied, cache.shared with
      | false, some shared => cache.getShared now text shared
      | _, _ => (none, cache)

/- Keeps a decision. -/
def set
    (now : Int)
    (key : TupleKey)
    (allowed : Bool)
    (cache : PermissionCache Shared) : PermissionCache Shared :=
  let text := keyText key
  let cache := cache.tally fun tallies =>
    { tallies with sets := tallies.sets + 1 }
  let cache :=
    { cache with near := cache.near.put now text allowed }
  if allowed then
    { cache with filter := cache.filter.add text }.callShared
      (SharedCache.put (cache.settings.keyStart ++ text)
        cache.settings.sharedLifetime allowedText)
  else
    cache

------------------------------------------------------------
-- Invalidation
------------------------------------------------------------

/- Forgets one decision. -/
def invalidate
    (key : TupleKey)
    (cache : PermissionCache Shared) : PermissionCache Shared :=
  let text := keyText key
  let cache := cache.tallyInvalidation
  { cache with near := (cache.near.remove text).2 }.callShared
    (SharedCache.delete [cache.settings.keyStart ++ text])

/- Forgets the decisions about a user. -/
def invalidateUser
    (user : Bytes)
    (cache : PermissionCache Shared) : PermissionCache Shared :=
  let start := userStart user
  let cache := cache.tallyInvalidation
  { cache with
    near := (cache.near.removeWhere start.isPrefixOf).2
  }.deleteShared
    (cache.settings.keyStart ++ Glob.escape start ++ [42])

/- Forgets the decisions about an object. -/
def invalidateObject
    (object : Bytes)
    (cache : PermissionCache Shared) : PermissionCache Shared :=
  let ending := objectEnd object
  let cache := cache.tallyInvalidation
  { cache with
    near := (cache.near.removeWhere ending.isSuffixOf).2
  }.deleteShared
    (cache.settings.keyStart ++ 42 :: Glob.escape ending)

/- Forgets all decisions, near and shared. -/
def forget
    (cache : PermissionCache Shared) : PermissionCache Shared :=
  { cache with
    near := cache.near.clear
    filter := cache.filter.clear
  }.deleteShared (cache.settings.keyStart ++ [42])

/- Forgets all decisions, and counts an invalidation. -/
def invalidateAll
    (cache : PermissionCache Shared) : PermissionCache Shared :=
  cache.tallyInvalidation.forget

/- Forgets all decisions and what was counted so far. -/
def clear
    (cache : PermissionCache Shared) : PermissionCache Shared :=
  { cache.forget with tallies := {} }

------------------------------------------------------------
-- Statistics
------------------------------------------------------------

/- The state of a cache in numbers. -/
structure Statistics where
  tallies : Tallies
  nearSize : Nat
  hasShared : Bool
  filterFill : Float
  filterRate : Float
  deriving Repr

/- The share of lookups that found a decision. -/
def Statistics.hitRate (statistics : Statistics) : Float :=
  let tallies := statistics.tallies
  let lookups := tallies.nearHits + tallies.nearMisses
  if lookups = 0 then
    0.0
  else
    Float.ofNat (tallies.nearHits + tallies.sharedHits) /
      Float.ofNat lookups

/- The state of a cache in numbers. -/
def statistics
    (cache : PermissionCache Shared) : Statistics :=
  { tallies := cache.tallies
    nearSize := cache.near.size
    hasShared := cache.shared.isSome
    filterFill := cache.filter.fill
    filterRate := cache.filter.falsePositiveRate }

end PermissionCache

end Rebac
