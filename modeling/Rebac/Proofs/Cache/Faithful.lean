import Rebac.Proofs.Cache.Permission

/-
  This file proves that a cache of decisions only returns
  what it was given: if every decision that is kept is right
  at one time, so is every decision that is found.

  What is right may change. Then all decisions have to be
  forgotten, and afterwards the cache holds none, near or
  shared.

  Key definitions include:
    * `PermissionCache.Usable`
    * `PermissionCache.Faithful`

  Key theorems include:
    * `PermissionCache.Faithful.right_of_lookup`
    * `PermissionCache.Faithful.lookup`
    * `PermissionCache.Faithful.set`
    * `PermissionCache.Usable.faithful_forget`
    * `PermissionCache.Usable.invalidateAll`
    * `PermissionCache.Usable.clear`
-/

namespace Rebac

namespace PermissionCache

variable {Shared : Type} [SharedCache Shared]
variable {Works : Shared → Prop}
variable {laws : SharedCache.Laws Shared}
variable {Right Fair : Bytes → Bool → Prop}
variable {cache : PermissionCache Shared}
variable {now : Int}
variable {key : TupleKey}

------------------------------------------------------------
-- Usable Caches
------------------------------------------------------------

/-
  A cache whose shared keys start with a text without special
  signs, and whose shared cache works if there is one.
-/
structure Usable
    (Works : Shared → Prop)
    (cache : PermissionCache Shared) : Prop where
  plain : ∀ byte ∈ cache.settings.keyStart,
    Glob.isSpecial byte = false
  works : ∀ shared ∈ cache.shared, Works shared

namespace Usable

theorem lookup
    {found : Option (Bool × Source)}
    {after : PermissionCache Shared}
    (hReliable : SharedCache.Reliable Works)
    (hUsable : cache.Usable Works)
    (hLookup : Lookup now key cache found after) :
    after.Usable Works := by
  have hAsked {shared answer left}
      (hShared : cache.shared = some shared)
      (hGet :
        SharedCache.get (cache.settings.keyStart ++ keyText key)
          shared = (answer, left)) :
      Works left := by
    have hWorks :=
      hReliable.get (cache.settings.keyStart ++ keyText key)
        (hUsable.works shared hShared)
    rw [hGet] at hWorks
    exact hWorks.2
  cases hLookup with
  | near hNear => exact ⟨hUsable.plain, hUsable.works⟩
  | unasked hNear hUnasked =>
      exact ⟨hUsable.plain, hUsable.works⟩
  | absent hNear hFilter hShared hGet hAnswer =>
      refine ⟨hUsable.plain, ?_⟩
      rintro _ ⟨⟩
      exact hAsked hShared hGet
  | shared hNear hFilter hShared hGet =>
      refine ⟨hUsable.plain, ?_⟩
      rintro _ ⟨⟩
      exact hAsked hShared hGet

theorem set
    (hReliable : SharedCache.Reliable Works)
    (hUsable : cache.Usable Works)
    (allowed : Bool) :
    (cache.set now key allowed).Usable Works := by
  refine
    ⟨set_settings now key allowed cache ▸ hUsable.plain, ?_⟩
  intro shared hShared
  rw [set_shared] at hShared
  split at hShared
  · rcases Option.map_eq_some_iff.mp hShared with
      ⟨before, hBefore, rfl⟩
    exact (hReliable.put _ _ _ (hUsable.works before hBefore)).2
  · exact hUsable.works shared hShared

theorem forget
    (hReliable : SharedCache.Reliable Works)
    (hUsable : cache.Usable Works) :
    cache.forget.Usable Works := by
  refine ⟨forget_settings cache ▸ hUsable.plain, ?_⟩
  intro shared hShared
  rw [forget_shared] at hShared
  rcases Option.map_eq_some_iff.mp hShared with
    ⟨before, hBefore, rfl⟩
  exact (hReliable.deleteMatching _
    (hUsable.works before hBefore)).2

end Usable

------------------------------------------------------------
-- Faithful Caches
------------------------------------------------------------

/- A cache in which all decisions are right. -/
structure Faithful
    (laws : SharedCache.Laws Shared)
    (Right : Bytes → Bool → Prop)
    (cache : PermissionCache Shared) : Prop where
  near : ∀ entry ∈ cache.near.entries,
    Right entry.key entry.value
  shared : ∀ shared ∈ cache.shared, ∀ text value,
    laws.Holds shared (cache.settings.keyStart ++ text) value →
      Right text (decide (value = allowedText))

namespace Faithful

theorem mono
    (hFaithful : cache.Faithful laws Right)
    (hRight : ∀ text allowed,
      Right text allowed → Fair text allowed) :
    cache.Faithful laws Fair where
  near entry hEntry :=
    hRight _ _ (hFaithful.near entry hEntry)
  shared shared hShared text value hHolds :=
    hRight _ _
      (hFaithful.shared shared hShared text value hHolds)

/- A decision that is found is right. -/
theorem right_of_lookup
    {allowed : Bool}
    {source : Source}
    {after : PermissionCache Shared}
    (hFaithful : cache.Faithful laws Right)
    (hLookup :
      Lookup now key cache (some (allowed, source)) after) :
    Right (keyText key) allowed := by
  cases hLookup with
  | near hNear =>
      rcases Recency.exists_entry_of_get
        (congrArg Prod.fst hNear) with
          ⟨entry, hEntry, hKey, hValue⟩
      rw [← hKey, ← hValue]
      exact hFaithful.near entry hEntry
  | shared hNear hFilter hShared hGet =>
      exact hFaithful.shared _ hShared _ _
        (laws.holds_of_get (congrArg Prod.fst hGet))

/- A lookup leaves only right decisions. -/
theorem lookup
    {found : Option (Bool × Source)}
    {after : PermissionCache Shared}
    (hFaithful : cache.Faithful laws Right)
    (hLookup : Lookup now key cache found after) :
    after.Faithful laws Right := by
  have hKept {found near entry}
      (hNear :
        cache.near.get now (keyText key) = (found, near))
      (hEntry : entry ∈ near.entries) :
      Right entry.key entry.value := by
    apply hFaithful.near entry
    apply Recency.mem_of_mem_get
    rw [hNear]
    exact hEntry
  have hLeft {shared answer left text value}
      (hShared : cache.shared = some shared)
      (hGet :
        SharedCache.get (cache.settings.keyStart ++ keyText key)
          shared = (answer, left))
      (hHolds :
        laws.Holds left (cache.settings.keyStart ++ text) value) :
      Right text (decide (value = allowedText)) := by
    apply hFaithful.shared shared hShared
    apply laws.holds_get
    rw [hGet]
    exact hHolds
  have hFound := hLookup
  cases hLookup with
  | near hNear =>
      exact ⟨fun entry => hKept hNear, hFaithful.shared⟩
  | unasked hNear hUnasked =>
      exact ⟨fun entry => hKept hNear, hFaithful.shared⟩
  | absent hNear hFilter hShared hGet hAnswer =>
      refine ⟨fun entry => hKept hNear, ?_⟩
      rintro _ ⟨⟩ text value hHolds
      exact hLeft hShared hGet hHolds
  | shared hNear hFilter hShared hGet =>
      refine ⟨?_, ?_⟩
      · intro entry hEntry
        rcases Recency.eq_or_mem_of_mem_put hEntry with
          rfl | hOld
        · exact right_of_lookup hFaithful hFound
        · exact hKept hNear hOld
      · rintro _ ⟨⟩ text value hHolds
        exact hLeft hShared hGet hHolds

/- Keeping a right decision leaves only right decisions. -/
theorem set
    {allowed : Bool}
    (hFaithful : cache.Faithful laws Right)
    (hRight : Right (keyText key) allowed) :
    (cache.set now key allowed).Faithful laws Right := by
  refine ⟨?_, ?_⟩
  · intro entry hEntry
    rw [set_near] at hEntry
    rcases Recency.eq_or_mem_of_mem_put hEntry with
      rfl | hOld
    · exact hRight
    · exact hFaithful.near entry hOld
  · intro shared hShared text value hHolds
    rw [set_shared] at hShared
    rw [set_settings] at hHolds
    split at hShared
    · next hAllowed =>
        rcases Option.map_eq_some_iff.mp hShared with
          ⟨before, hBefore, rfl⟩
        rcases laws.holds_put hHolds with
          ⟨hText, rfl⟩ | hOld
        · rw [List.append_cancel_left hText, decide_eq_true rfl,
            ← hAllowed]
          exact hRight
        · exact hFaithful.shared before hBefore text value hOld
    · exact hFaithful.shared shared hShared text value hHolds

end Faithful

/- Where nothing is kept, everything that is kept is right. -/
theorem Usable.faithful_forget
    (hReliable : SharedCache.Reliable Works)
    (hUsable : cache.Usable Works) :
    cache.forget.Faithful laws Right := by
  refine ⟨?_, ?_⟩
  · intro entry hEntry
    rw [forget_near] at hEntry
    cases hEntry
  · intro shared hShared text value hHolds
    rw [forget_shared] at hShared
    rw [forget_settings] at hHolds
    rcases Option.map_eq_some_iff.mp hShared with
      ⟨before, hBefore, rfl⟩
    have hDeleted :=
      hReliable.deleteMatching (cache.settings.keyStart ++ [42])
        (hUsable.works before hBefore)
    rcases Option.isSome_iff_exists.mp hDeleted.1 with
      ⟨count, hCount⟩
    refine absurd ?_
      (laws.not_matches_of_deleteMatching hCount hHolds)
    exact ((Glob.rules_matches _).star_iff hUsable.plain).mpr
      (List.prefix_append _ _)

/- Invalidating all decisions forgets them. -/
theorem Usable.invalidateAll
    (hReliable : SharedCache.Reliable Works)
    (hUsable : cache.Usable Works) :
    cache.invalidateAll.Usable Works ∧
      cache.invalidateAll.Faithful laws Right := by
  have hTallied : cache.tallyInvalidation.Usable Works :=
    ⟨hUsable.plain, hUsable.works⟩
  exact ⟨hTallied.forget hReliable,
    hTallied.faithful_forget hReliable⟩

/- So does clearing the cache. -/
theorem Usable.clear
    (hReliable : SharedCache.Reliable Works)
    (hUsable : cache.Usable Works) :
    cache.clear.Usable Works ∧
      cache.clear.Faithful laws Right := by
  have hForgotten := hUsable.forget hReliable
  have hFaithful : cache.forget.Faithful laws Right :=
    hUsable.faithful_forget hReliable
  exact ⟨⟨hForgotten.plain, hForgotten.works⟩,
    ⟨hFaithful.near, hFaithful.shared⟩⟩

end PermissionCache

end Rebac
