import Rebac.Proofs.Cache.Recall

/-
  This file proves which decisions are found after they were
  forgotten, if calls to the shared cache may fail.

  A call that fails to remove a decision is not repeated, and
  the filter goes on to let its key through. So the decision
  is found once calls succeed again. This is the only case:
  what was removed, and what the filter denies, is not found
  until it is set again.

  Key definitions include:
    * `PermissionCache.Missed`
    * `PermissionCache.Traced`
    * `Unsteady`
    * `Unsteady.laws`

  Key theorems include:
    * `PermissionCache.Traced.perform`
    * `PermissionCache.Held.run`
    * `PermissionCache.found_after_drop`
    * `Unsteady.lasting`
-/

namespace Rebac

namespace PermissionCache

variable {Shared : Type} [SharedCache Shared]
variable {laws : SharedCache.Laws Shared}
variable {cache : PermissionCache Shared}
variable {scope : Scope}
variable {key : TupleKey}
variable {event : Event}
variable {later : List Event}
variable {value : Bytes}
variable {Left : Prop}

------------------------------------------------------------
-- What Is Not Left
------------------------------------------------------------

/- A shared decision that a removal fails to remove. -/
def Missed
    (laws : SharedCache.Laws Shared)
    (scope : Scope)
    (key : TupleKey)
    (cache : PermissionCache Shared) : Prop :=
  ¬ cache.Called scope ∧
    ∃ value, cache.Held laws (keyText key) value

/-
  A cache in which a key is kept only if something is the
  case, and near only if the filter lets it through as well.
-/
structure Traced
    (laws : SharedCache.Laws Shared)
    (key : TupleKey)
    (Left : Prop)
    (cache : PermissionCache Shared) : Prop where
  near : ∀ entry ∈ cache.near.entries,
    entry.key = keyText key →
      Left ∧ cache.filter.mightContain (keyText key) = true
  shared : ∀ value, cache.Held laws (keyText key) value → Left

/- After a removal, a key is kept only if it was missed. -/
theorem traced_drop
    (hPlain : cache.Plain)
    (hScope : scope.NoBar)
    (hKey : key.NoBar)
    (hCovers : scope.Covers key) :
    (cache.drop scope).Traced laws key
      (cache.Missed laws scope key) := by
  have hRemoves : scope.Removes (keyText key) :=
    (Scope.removes_iff hScope hKey).mpr hCovers
  constructor
  · intro entry hEntry hText
    have hSpared := (mem_drop_near_iff.mp hEntry).2
    rw [hText] at hSpared
    exact absurd hRemoves hSpared
  · intro value hHeld
    refine ⟨fun hCalled => ?_, value, held_of_drop hHeld⟩
    exact not_removes_of_held hPlain hCalled hHeld hRemoves

namespace Traced

/-
  This stays so until the key is set: a lookup only keeps near
  what it finds shared, behind the filter.
-/
theorem perform
    (hPlain : cache.Plain)
    (hTraced : cache.Traced laws key Left)
    (hEvent : event.operation.NoBar)
    (hKey : key.NoBar)
    (hUnset : ∀ allowed, ¬ event.Sets key allowed) :
    (cache.perform event).Traced laws key Left := by
  constructor
  · intro entry hEntry hText
    rcases near_cases laws hEntry with
      ⟨hOld, hSpares⟩ | ⟨other, hSet, hOther⟩ |
        ⟨other, hGet, hOther, hFilter, value, hHeld, _⟩
    · -- the filter is only emptied together with the near cache
      rw [hText] at hSpares
      rcases hTraced.near entry hOld hText with ⟨hLeft, hFilter⟩
      have hKept := (continues_of_spares hEvent hKey hSpares).1
      exact ⟨hLeft, (grown_perform hKept).mightContain hFilter⟩
    · rw [hText] at hOther
      exact absurd (sets_of_keyText_eq hKey hSet hOther)
        (hUnset entry.value)
    · rw [← hOther, hText] at hFilter hHeld
      have hKept : ¬ event.Drops key := not_drops_of_get hGet
      exact ⟨hTraced.shared value hHeld,
        (grown_perform hKept).mightContain hFilter⟩
  · intro value hHeld
    rcases held_cases hPlain hHeld with
      ⟨hOld, _⟩ | ⟨other, hSet, hText, _⟩
    · exact hTraced.shared value hOld
    · exact absurd (sets_of_keyText_eq hKey hSet hText)
        (hUnset true)

theorem run
    (hPlain : cache.Plain)
    (hTraced : cache.Traced laws key Left)
    (hKey : key.NoBar)
    (hLater : ∀ event ∈ later, event.operation.NoBar)
    (hUnset : ∀ event ∈ later,
      ∀ allowed, ¬ event.Sets key allowed) :
    (cache.run later).Traced laws key Left := by
  induction later generalizing cache with
  | nil => exact hTraced
  | cons event others hOthers =>
      rw [List.forall_mem_cons] at hLater hUnset
      refine hOthers ?_ ?_ hLater.2 hUnset.2
      · rw [Plain, perform_settings]
        exact hPlain
      · exact hTraced.perform hPlain hLater.1 hKey hUnset.1

/- What is found was let through by the filter. -/
theorem of_lookup
    {now : Int}
    {found : Bool × Source}
    {after : PermissionCache Shared}
    (hTraced : cache.Traced laws key Left)
    (hLookup : Lookup now key cache (some found) after) :
    Left ∧ cache.filter.mightContain (keyText key) = true := by
  rcases exists_of_lookup laws hLookup with
    ⟨entry, hEntry, hText, _⟩ | ⟨hFilter, value, hHeld, _⟩
  · exact hTraced.near entry hEntry hText
  · exact ⟨hTraced.shared value hHeld, hFilter⟩

end Traced

------------------------------------------------------------
-- What Is Left
------------------------------------------------------------

/- A shared decision stays so until it is set or forgotten. -/
theorem Held.run
    (hLasting : laws.Lasting)
    (hPlain : cache.Plain)
    (hHeld : cache.Held laws (keyText key) value)
    (hKey : key.NoBar)
    (hLater : ∀ event ∈ later, event.operation.NoBar)
    (hUnset : ∀ event ∈ later,
      ∀ allowed, ¬ event.Sets key allowed)
    (hKept : ∀ event ∈ later, ¬ event.Drops key) :
    (cache.run later).Held laws (keyText key) value := by
  induction later generalizing cache with
  | nil => exact hHeld
  | cons event others hOthers =>
      rw [List.forall_mem_cons] at hLater hUnset hKept
      refine hOthers ?_ ?_ hLater.2 hUnset.2 hKept.2
      · rw [Plain, perform_settings]
        exact hPlain
      · refine hHeld.perform hLasting hPlain ?_ ?_
        · intro other hSet hText
          exact hUnset.1 true
            (sets_of_keyText_eq hKey hSet hText)
        · intro scope hDrop hRemoves
          exact hKept.1
            ((drops_iff hLater.1 hKey).mpr
              ⟨scope, hDrop, hRemoves⟩)

/- What is shared is found, if the filter lets it through. -/
theorem isSome_get_of_held
    {now : Int}
    (hLasting : laws.Lasting)
    (hFilter : cache.filter.mightContain (keyText key) = true)
    (hHeld : cache.Held laws (keyText key) value)
    (hAsked : cache.Asked key) :
    (cache.get now key).1.isSome := by
  cases hNear : (cache.near.get now (keyText key)).1 with
  | none =>
      rcases get_of_held hLasting hNear hFilter hHeld hAsked with
        ⟨found, _, hGet⟩
      rw [hGet]
      rfl
  | some allowed =>
      rw [get_of_near hNear]
      rfl

/-
  After a removal, and until it is set again, a key is found
  only if the removal has missed a shared decision about it
  and the filter lets it through. If the shared cache loses
  nothing, such a key is found until it is removed anew,
  whenever the lookup there succeeds.
-/
theorem found_after_drop
    (laws : SharedCache.Laws Shared)
    (hPlain : cache.Plain)
    (hScope : scope.NoBar)
    (hKey : key.NoBar)
    (hCovers : scope.Covers key)
    (hLater : ∀ event ∈ later, event.operation.NoBar)
    (hUnset : ∀ event ∈ later,
      ∀ allowed, ¬ event.Sets key allowed) :
    (∀ now,
      (((cache.drop scope).run later).get now key).1.isSome →
        cache.Missed laws scope key ∧
          ((cache.drop scope).run later).filter.mightContain
            (keyText key) = true) ∧
    (laws.Lasting → cache.Missed laws scope key →
      (∀ event ∈ later, ¬ event.Drops key) →
        ((cache.drop scope).run later).filter.mightContain
            (keyText key) = true →
          ((cache.drop scope).run later).Asked key →
            ∀ now,
              (((cache.drop scope).run later).get now
                key).1.isSome) := by
  have hDropped : (cache.drop scope).Plain := by
    rw [Plain, drop_settings]
    exact hPlain
  constructor
  · intro now hFound
    rcases Option.isSome_iff_exists.mp hFound with
      ⟨found, hGet⟩
    have hTraced :
        ((cache.drop scope).run later).Traced laws key
          (cache.Missed laws scope key) :=
      (traced_drop hPlain hScope hKey hCovers).run hDropped hKey
        hLater hUnset
    have hLookup :=
      lookup_get now key ((cache.drop scope).run later)
    rw [hGet] at hLookup
    exact hTraced.of_lookup hLookup
  · rintro hLasting ⟨hFailed, value, hHeld⟩ hKept hFilter
      hAsked now
    have hDrop : (cache.drop scope).Held laws (keyText key) value :=
      hHeld.drop hLasting hPlain fun _ => hFailed
    have hLeft :=
      hDrop.run hLasting hDropped hKey hLater hUnset hKept
    exact isSome_get_of_held hLasting hFilter hLeft hAsked

end PermissionCache

------------------------------------------------------------
-- Unsteady Caches
------------------------------------------------------------

/-
  A keyspace some of whose calls fail: those whose number, in
  the order of all calls, a test holds of.
-/
structure Unsteady where
  keyspace : Keyspace
  fails : Nat → Bool

namespace Unsteady

/- The keyspace as the next call finds it. -/
def ready (unsteady : Unsteady) : Keyspace :=
  { unsteady.keyspace with
    available := !unsteady.fails unsteady.keyspace.calls.length }

/- Makes the next call. -/
def call
    {Result : Type}
    (action : Keyspace → Option Result × Keyspace)
    (unsteady : Unsteady) : Option Result × Unsteady :=
  let (result, keyspace) := action unsteady.ready
  (result, { unsteady with keyspace := keyspace })

instance : SharedCache Unsteady where
  get key := call (SharedCache.get key)
  put key seconds value := call (SharedCache.put key seconds value)
  delete keys := call (SharedCache.delete keys)
  deleteMatching pattern := call (SharedCache.deleteMatching pattern)

/- Its entries obey the laws, as those of its keyspace do. -/
def laws : SharedCache.Laws Unsteady where
  Holds unsteady := Keyspace.laws.Holds unsteady.ready
  dialect unsteady := Keyspace.laws.dialect unsteady.ready
  holds_of_get hGet := Keyspace.laws.holds_of_get hGet
  holds_get hHolds := Keyspace.laws.holds_get hHolds
  holds_put hHolds := Keyspace.laws.holds_put hHolds
  holds_delete hHolds := Keyspace.laws.holds_delete hHolds
  not_mem_of_delete hDelete hHolds :=
    Keyspace.laws.not_mem_of_delete hDelete hHolds
  holds_deleteMatching hHolds :=
    Keyspace.laws.holds_deleteMatching hHolds
  not_matches_of_deleteMatching hDelete hHolds :=
    Keyspace.laws.not_matches_of_deleteMatching hDelete hHolds

/- It loses nothing either. -/
theorem lasting : laws.Lasting where
  found_of_holds hHolds hGet :=
    Keyspace.lasting.found_of_holds hHolds hGet
  get hHolds := Keyspace.lasting.get hHolds
  put hPut := Keyspace.lasting.put hPut
  put_other hHolds hOther := Keyspace.lasting.put_other hHolds hOther
  delete hHolds hKept := Keyspace.lasting.delete hHolds hKept
  deleteMatching hHolds hKept :=
    Keyspace.lasting.deleteMatching hHolds hKept

end Unsteady

------------------------------------------------------------
-- An Example
------------------------------------------------------------

namespace Readers

open PermissionCache

/- The cache of readers, in front of a cache that may fail. -/
def unsteady (fails : Nat → Bool) : PermissionCache Unsteady :=
  { settings := cache.settings
    near := cache.near
    filter := cache.filter
    shared := some { keyspace := { dialect := .full }, fails } }

/- A reader is allowed to, which is the first call made. -/
def allowed (fails : Nat → Bool) : PermissionCache Unsteady :=
  (unsteady fails).run [⟨0, .set key true⟩]

/- Her decision is forgotten, which is the second one. -/
def forgotten (fails : Nat → Bool) : PermissionCache Unsteady :=
  (allowed fails).drop (.decision key)

/- It is looked up afterwards. -/
def lookups : List Event :=
  [⟨2, .get key⟩]

/- The second call fails, and no other one does. -/
def second (number : Nat) : Bool :=
  number = 1

theorem unsteady_fresh (fails : Nat → Bool) :
    (unsteady fails).Fresh Unsteady.laws where
  near := rfl
  slots := fresh.slots
  shared := by
    rintro text value ⟨_, ⟨⟩, hHolds⟩
    exact absurd hHolds List.not_mem_nil

theorem allowed_plain (fails : Nat → Bool) :
    (allowed fails).Plain := by
  rw [Plain, allowed, run, run, perform_settings]
  exact usable.plain

theorem decision_noBar : (Scope.decision key).NoBar :=
  key_noBar

theorem lookups_noBar :
    ∀ event ∈ lookups, event.operation.NoBar := by
  intro event hEvent
  cases List.mem_singleton.mp hEvent
  exact key_noBar

theorem lookups_unset :
    ∀ event ∈ lookups, ∀ allowed, ¬ event.Sets key allowed := by
  intro event hEvent
  cases List.mem_singleton.mp hEvent
  exact nofun

theorem lookups_kept :
    ∀ event ∈ lookups, ¬ event.Drops key := by
  intro event hEvent
  cases List.mem_singleton.mp hEvent
  rintro ⟨scope, ⟨⟩, _⟩

/- If the second call fails, the removal misses the decision. -/
theorem allowed_missed :
    (allowed second).Missed Unsteady.laws (.decision key) key := by
  refine ⟨?_, allowedText, _, rfl, List.mem_cons_self⟩
  rw [Called]
  decide +kernel

/-
  If no call fails, she is not found any more; if the second
  one does, she still is.
-/
theorem found_if_missed :
    (((forgotten fun _ => false).run lookups).get 3 key).1 =
        none ∧
      (((forgotten second).run lookups).get 3 key).1.isSome := by
  constructor
  · have hCalled :
        (allowed fun _ => false).Called (.decision key) := by
      rw [Called]
      decide +kernel
    rw [← Option.not_isSome_iff_eq_none]
    intro hFound
    have hMissed :=
      (found_after_drop Unsteady.laws (allowed_plain _)
        decision_noBar key_noBar rfl lookups_noBar
        lookups_unset).1 3 hFound
    exact hMissed.1.1 hCalled
  · have hFilter :
        ((forgotten second).run lookups).filter.mightContain
          (keyText key) = true := by
      decide +kernel
    have hAsked : ((forgotten second).run lookups).Asked key := by
      rw [Asked]
      decide +kernel
    exact (found_after_drop Unsteady.laws (allowed_plain _)
      decision_noBar key_noBar rfl lookups_noBar
      lookups_unset).2 Unsteady.lasting allowed_missed
      lookups_kept hFilter hAsked 3

/-
  She is forgotten, and not allowed again, but what is found
  is that she is allowed.
-/
theorem forgotten_found_allowed :
    (unsteady second).Fresh Unsteady.laws ∧
      (unsteady second).Plain ∧
      key.NoBar ∧
      (Scope.decision key).Covers key ∧
      (((unsteady second).run
          [⟨0, .set key true⟩, ⟨1, .drop (.decision key)⟩]).get 2
        key).1 = some (true, .shared) := by
  refine ⟨unsteady_fresh second, usable.plain, key_noBar, rfl, ?_⟩
  decide +kernel

end Readers

end Rebac
