import Rebac.Cache.Permission
import Rebac.Proofs.Cache.Glob
import Rebac.Proofs.Cache.Recency
import Rebac.Proofs.Cache.Shared

/-
  This file proves what the operations of the cache of
  decisions do to its parts.

  Key definitions include:
    * `PermissionCache.Lookup`

  Key theorems include:
    * `PermissionCache.set_near`
    * `PermissionCache.set_shared`
    * `PermissionCache.lookup_get`
    * `PermissionCache.get_set_of_keyText_eq`
    * `PermissionCache.forget_shared`
-/

namespace Rebac

namespace PermissionCache

variable {Shared : Type}

------------------------------------------------------------
-- Calls
------------------------------------------------------------

@[simp] theorem callShared_near
    {Result : Type}
    (call : Shared → Option Result × Shared)
    (cache : PermissionCache Shared) :
    (cache.callShared call).near = cache.near := by
  rw [callShared]
  split
  · rfl
  · dsimp only
    split <;> rfl

@[simp] theorem callShared_settings
    {Result : Type}
    (call : Shared → Option Result × Shared)
    (cache : PermissionCache Shared) :
    (cache.callShared call).settings = cache.settings := by
  rw [callShared]
  split
  · rfl
  · dsimp only
    split <;> rfl

@[simp] theorem callShared_filter
    {Result : Type}
    (call : Shared → Option Result × Shared)
    (cache : PermissionCache Shared) :
    (cache.callShared call).filter = cache.filter := by
  rw [callShared]
  split
  · rfl
  · dsimp only
    split <;> rfl

/- A call changes the shared cache, if there is one. -/
@[simp] theorem callShared_shared
    {Result : Type}
    (call : Shared → Option Result × Shared)
    (cache : PermissionCache Shared) :
    (cache.callShared call).shared =
      cache.shared.map fun shared => (call shared).2 := by
  rw [callShared]
  split
  · next hShared => rw [hShared]; rfl
  · next hShared =>
      rw [hShared]
      dsimp only
      split <;> rfl

------------------------------------------------------------
-- Decisions
------------------------------------------------------------

variable [SharedCache Shared]

/- A decision is kept near under the text of its key. -/
theorem set_near
    (now : Int)
    (key : TupleKey)
    (allowed : Bool)
    (cache : PermissionCache Shared) :
    (cache.set now key allowed).near =
      cache.near.put now (keyText key) allowed := by
  cases allowed with
  | true => exact callShared_near _ _
  | false => rfl

@[simp] theorem set_settings
    (now : Int)
    (key : TupleKey)
    (allowed : Bool)
    (cache : PermissionCache Shared) :
    (cache.set now key allowed).settings = cache.settings := by
  cases allowed with
  | true => exact callShared_settings _ _
  | false => rfl

/- An allowed decision is shared, and a denied one is not. -/
theorem set_shared
    (now : Int)
    (key : TupleKey)
    (allowed : Bool)
    (cache : PermissionCache Shared) :
    (cache.set now key allowed).shared =
      if allowed then
        cache.shared.map fun shared =>
          (SharedCache.put
            (cache.settings.keyStart ++ keyText key)
            cache.settings.sharedLifetime allowedText shared).2
      else
        cache.shared := by
  cases allowed with
  | true => exact callShared_shared _ _
  | false => rfl

/- The key of an allowed decision is added to the filter. -/
theorem set_filter
    (now : Int)
    (key : TupleKey)
    (allowed : Bool)
    (cache : PermissionCache Shared) :
    (cache.set now key allowed).filter =
      if allowed then cache.filter.add (keyText key)
      else cache.filter := by
  cases allowed with
  | true => exact callShared_filter _ _
  | false => rfl

/- A decision that is found near is the one returned. -/
theorem get_of_near
    {now : Int}
    {key : TupleKey}
    {allowed : Bool}
    {cache : PermissionCache Shared}
    (hNear :
      (cache.near.get now (keyText key)).1 = some allowed) :
    (cache.get now key).1 = some (allowed, .near) := by
  simp only [get, tally, hNear]

/-
  How a lookup goes: a decision is found near; or it is not,
  and the shared cache is not asked, has none, or has one
  that is kept near from then on.
-/
inductive Lookup
    (now : Int)
    (key : TupleKey)
    (cache : PermissionCache Shared) :
    Option (Bool × Source) → PermissionCache Shared → Prop where
  | near {allowed tallies near}
      (hNear :
        cache.near.get now (keyText key) = (some allowed, near)) :
      Lookup now key cache (some (allowed, .near))
        { cache with near := near, tallies := tallies }
  | unasked {tallies near}
      (hNear : cache.near.get now (keyText key) = (none, near))
      (hUnasked :
        cache.filter.mightContain (keyText key) = false ∨
          cache.shared = none) :
      Lookup now key cache none
        { cache with near := near, tallies := tallies }
  | absent {tallies near shared answer after}
      (hNear : cache.near.get now (keyText key) = (none, near))
      (hFilter : cache.filter.mightContain (keyText key) = true)
      (hShared : cache.shared = some shared)
      (hGet :
        SharedCache.get (cache.settings.keyStart ++ keyText key)
          shared = (answer, after))
      (hAnswer : answer.join = none) :
      Lookup now key cache none
        { cache with
          near := near
          shared := some after
          tallies := tallies }
  | shared {tallies near shared value after}
      (hNear : cache.near.get now (keyText key) = (none, near))
      (hFilter : cache.filter.mightContain (keyText key) = true)
      (hShared : cache.shared = some shared)
      (hGet :
        SharedCache.get (cache.settings.keyStart ++ keyText key)
          shared = (some (some value), after)) :
      Lookup now key cache
        (some (decide (value = allowedText), .shared))
        { cache with
          near :=
            near.put now (keyText key)
              (decide (value = allowedText))
          shared := some after
          tallies := tallies }

theorem lookup_get
    (now : Int)
    (key : TupleKey)
    (cache : PermissionCache Shared) :
    Lookup now key cache (cache.get now key).1
      (cache.get now key).2 := by
  rw [get]
  dsimp only [tally]
  rcases hNear : cache.near.get now (keyText key) with
    ⟨_ | allowed, near⟩
  · dsimp only
    split
    · next shared hDenied hShared =>
        have hFilter :
            cache.filter.mightContain (keyText key) = true :=
          Bool.not_eq_false' _ ▸ hDenied
        rw [getShared]
        dsimp only [tallyError, tally]
        rcases hGet :
            SharedCache.get
              (cache.settings.keyStart ++ keyText key) shared with
          ⟨_ | _ | value, after⟩
        · exact .absent hNear hFilter hShared hGet rfl
        · exact .absent hNear hFilter hShared hGet rfl
        · exact .shared hNear hFilter hShared hGet
    · next hOther =>
        refine .unasked hNear ?_
        cases hFilter : cache.filter.mightContain (keyText key) with
        | false => exact .inl rfl
        | true =>
            refine .inr (Option.eq_none_iff_forall_ne_some.mpr ?_)
            intro shared hShared
            exact hOther shared (by rw [hFilter]; rfl) hShared
  · exact .near hNear

/-
  A decision that was just kept is found under every key that
  has the same text, as long as it lives.
-/
theorem get_set_of_keyText_eq
    {now later : Int}
    {first second : TupleKey}
    {allowed : Bool}
    {cache : PermissionCache Shared}
    (hText : keyText first = keyText second)
    (hRoom : 0 < cache.near.capacity)
    (hLives :
      Clock.nanoseconds later <
        Clock.after now cache.near.lifetime) :
    ((cache.set now first allowed).get later second).1 =
      some (allowed, .near) := by
  apply get_of_near
  rw [set_near, ← hText]
  exact Recency.get_put hRoom hLives

------------------------------------------------------------
-- Invalidation
------------------------------------------------------------

@[simp] theorem forget_near
    (cache : PermissionCache Shared) :
    cache.forget.near = cache.near.clear :=
  callShared_near _ _

@[simp] theorem forget_settings
    (cache : PermissionCache Shared) :
    cache.forget.settings = cache.settings :=
  callShared_settings _ _

/- The shared keys of the cache are deleted. -/
theorem forget_shared
    (cache : PermissionCache Shared) :
    cache.forget.shared =
      cache.shared.map fun shared =>
        (SharedCache.deleteMatching
          (cache.settings.keyStart ++ [42]) shared).2 :=
  callShared_shared _ _

end PermissionCache

end Rebac
