import Rebac.Proofs.Cache.Bloom
import Rebac.Proofs.Cache.Key

/-
  This file defines what can happen to a cache of decisions,
  and proves where a decision in it comes from.

  Several operations forget decisions: one decision, those of
  a user or of an object, or all of them. They differ only in
  the texts that they remove, and remove the same texts from
  the near cache and, if the call succeeds, from the shared
  cache.

  Key definitions include:
    * `PermissionCache.Scope`
    * `PermissionCache.Scope.Covers`
    * `PermissionCache.Scope.Removes`
    * `PermissionCache.drop`
    * `PermissionCache.Operation`
    * `PermissionCache.Event`
    * `PermissionCache.run`
    * `PermissionCache.Held`
    * `PermissionCache.Called`

  Key theorems include:
    * `PermissionCache.Scope.removes_iff`
    * `PermissionCache.near_cases`
    * `PermissionCache.held_cases`
    * `PermissionCache.Held.perform`
    * `PermissionCache.grown_perform`
-/

namespace Rebac

namespace PermissionCache

variable {text value : Bytes}

------------------------------------------------------------
-- Scopes
------------------------------------------------------------

/-
  Which decisions are forgotten; with all of them, what was
  counted may be forgotten as well.
-/
inductive Scope where
  | decision (key : TupleKey)
  | user (user : Bytes)
  | object (object : Bytes)
  | all (tallies : Bool)
  deriving DecidableEq, Repr

namespace Scope

/- Whether the decision about a key is forgotten. -/
def Covers (key : TupleKey) : Scope → Prop
  | .decision other => key = other
  | .user id => key.user = id
  | .object id => key.object = id
  | .all _ => True

/- A scope whose texts contain no bar. -/
def NoBar : Scope → Prop
  | .decision key => key.NoBar
  | .user id => bar ∉ id
  | .object id => bar ∉ id
  | .all _ => True

/- Whether the decision that is kept under a text goes. -/
def Removes (text : Bytes) : Scope → Prop
  | .decision key => text = keyText key
  | .user id => userStart id <+: text
  | .object id => objectEnd id <:+ text
  | .all _ => True

instance (text : Bytes) (scope : Scope) :
    Decidable (scope.Removes text) := by
  cases scope <;>
    · unfold Removes
      infer_instance

/-
  Among texts without bars, what is removed is what is
  covered.
-/
theorem removes_iff
    {scope : Scope}
    {key : TupleKey}
    (hScope : scope.NoBar)
    (hKey : key.NoBar) :
    scope.Removes (keyText key) ↔ scope.Covers key := by
  cases scope with
  | decision other =>
      constructor
      · exact eq_of_keyText_eq hScope
      · exact congrArg keyText
  | user id =>
      constructor
      · rintro ⟨rest, hText⟩
        simp only [userStart, keyText, List.append_assoc,
          List.cons_append, List.nil_append] at hText
        exact (Bytes.before_eq_of_append_cons hScope hKey.user
          hText).symm
      · rintro rfl
        exact ⟨key.relation ++ bar :: key.object, by
          simp only [userStart, keyText, List.append_assoc,
            List.cons_append, List.nil_append]⟩
  | object id =>
      constructor
      · rintro ⟨rest, hText⟩
        rw [objectEnd, keyText] at hText
        exact (Bytes.behind_eq_of_append_cons hScope hKey.object
          hText).symm
      · rintro rfl
        exact ⟨key.user ++ bar :: key.relation, rfl⟩
  | all _ => exact Iff.rfl

/- Whether a shared key is that of a chosen text. -/
def Copies
    (keyStart : Bytes)
    (Chosen : Bytes → Prop)
    (key : Bytes) : Prop :=
  ∃ text, key = keyStart ++ text ∧ Chosen text

theorem copies_append_iff
    {keyStart : Bytes}
    {Chosen : Bytes → Prop} :
    Copies keyStart Chosen (keyStart ++ text) ↔ Chosen text := by
  simp [Copies]

section Patterns

variable {Stands : Bytes → Bytes → Prop}
variable {keyStart key id : Bytes}
variable (hRules : Glob.Rules Stands)
variable
  (hPlain : ∀ byte ∈ keyStart, Glob.isSpecial byte = false)

include hRules hPlain

/-
  The pattern for a user stands for the shared keys of what
  the user removes, whatever bytes the user consists of.
-/
theorem stands_userStart_iff :
    Stands (keyStart ++ Glob.escape (userStart id) ++ [42]) key ↔
      Copies keyStart (fun text => (Scope.user id).Removes text)
        key := by
  rw [hRules.escape_star_iff hPlain]
  constructor
  · rintro ⟨rest, rfl⟩
    exact ⟨userStart id ++ rest, List.append_assoc _ _ _,
      List.prefix_append _ _⟩
  · rintro ⟨text, rfl, hText⟩
    exact (List.prefix_append_right_inj keyStart).mpr hText

/- The pattern for an object stands for those of what that removes. -/
theorem stands_objectEnd_iff :
    Stands (keyStart ++ 42 :: Glob.escape (objectEnd id)) key ↔
      Copies keyStart (fun text => (Scope.object id).Removes text)
        key := by
  rw [hRules.star_escape_iff hPlain]
  constructor
  · rintro ⟨middle, rfl⟩
    exact ⟨_, rfl, List.suffix_append _ _⟩
  · rintro ⟨text, rfl, middle, rfl⟩
    exact ⟨middle, rfl⟩

/- The pattern for all decisions stands for all of those. -/
theorem stands_keyStart_iff
    {tallies : Bool} :
    Stands (keyStart ++ [42]) key ↔
      Copies keyStart (fun text => (Scope.all tallies).Removes text)
        key := by
  rw [hRules.star_iff hPlain]
  constructor
  · rintro ⟨text, rfl⟩
    exact ⟨text, rfl, trivial⟩
  · rintro ⟨text, rfl, _⟩
    exact List.prefix_append _ _

end Patterns

variable {Shared : Type} [SharedCache Shared]

/- The call that removes the shared decisions. -/
def call (keyStart : Bytes) :
    Scope → Shared → Option UInt64 × Shared
  | .decision key =>
      SharedCache.delete [keyStart ++ keyText key]
  | .user id =>
      SharedCache.deleteMatching
        (keyStart ++ Glob.escape (userStart id) ++ [42])
  | .object id =>
      SharedCache.deleteMatching
        (keyStart ++ 42 :: Glob.escape (objectEnd id))
  | .all _ => SharedCache.deleteMatching (keyStart ++ [42])

end Scope

variable {Shared : Type} [SharedCache Shared]

/- Forgets the decisions in a scope. -/
def drop
    (scope : Scope)
    (cache : PermissionCache Shared) : PermissionCache Shared :=
  match scope with
  | .decision key => cache.invalidate key
  | .user id => cache.invalidateUser id
  | .object id => cache.invalidateObject id
  | .all false => cache.invalidateAll
  | .all true => cache.clear

------------------------------------------------------------
-- Runs
------------------------------------------------------------

/- What can be done with a cache. -/
inductive Operation where
  | get (key : TupleKey)
  | set (key : TupleKey) (allowed : Bool)
  | drop (scope : Scope)
  deriving DecidableEq, Repr

/- An operation and the time when it happens. -/
structure Event where
  now : Int
  operation : Operation
  deriving DecidableEq, Repr

/- An operation whose texts contain no bar. -/
def Operation.NoBar : Operation → Prop
  | .get key => key.NoBar
  | .set key _ => key.NoBar
  | .drop scope => scope.NoBar

/- An event sets the decision about a key. -/
def Event.Sets
    (key : TupleKey)
    (allowed : Bool)
    (event : Event) : Prop :=
  event.operation = .set key allowed

/- An event forgets the decision about a key. -/
def Event.Drops (key : TupleKey) (event : Event) : Prop :=
  ∃ scope, event.operation = .drop scope ∧ scope.Covers key

/- The cache after an event. -/
def perform
    (event : Event)
    (cache : PermissionCache Shared) : PermissionCache Shared :=
  match event.operation with
  | .get key => (cache.get event.now key).2
  | .set key allowed => cache.set event.now key allowed
  | .drop scope => cache.drop scope

/- The cache after some events. -/
def run :
    List Event → PermissionCache Shared → PermissionCache Shared
  | [], cache => cache
  | event :: others, cache => run others (cache.perform event)

theorem run_append
    (earlier later : List Event)
    (cache : PermissionCache Shared) :
    cache.run (earlier ++ later) =
      (cache.run earlier).run later := by
  induction earlier generalizing cache with
  | nil => rfl
  | cons event others hOthers => exact hOthers _

------------------------------------------------------------
-- Parts After a Removal
------------------------------------------------------------

variable {cache : PermissionCache Shared}
variable {laws : SharedCache.Laws Shared}
variable {scope : Scope}

@[simp] theorem drop_settings
    (scope : Scope)
    (cache : PermissionCache Shared) :
    (cache.drop scope).settings = cache.settings := by
  cases scope with
  | decision key => exact callShared_settings _ _
  | user id => exact callShared_settings _ _
  | object id => exact callShared_settings _ _
  | all tallies =>
      cases tallies <;> exact callShared_settings _ _

/-
  The near decisions that are not removed are kept, in the
  same order.
-/
theorem drop_near_entries
    (scope : Scope)
    (cache : PermissionCache Shared) :
    (cache.drop scope).near.entries =
      cache.near.entries.filter fun entry =>
        ¬ scope.Removes entry.key := by
  cases scope with
  | decision key =>
      rw [drop, invalidate, callShared_near]
      exact Recency.entries_remove _ _
  | user id =>
      rw [drop, invalidateUser, deleteShared, callShared_near]
      dsimp only
      rw [Recency.entries_removeWhere]
      refine List.filter_congr fun entry _ => ?_
      rw [Bool.eq_iff_iff, Bool.not_eq_true', decide_eq_true_iff,
        ← Bool.not_eq_true, List.isPrefixOf_iff_prefix]
      rfl
  | object id =>
      rw [drop, invalidateObject, deleteShared, callShared_near]
      dsimp only
      rw [Recency.entries_removeWhere]
      refine List.filter_congr fun entry _ => ?_
      rw [Bool.eq_iff_iff, Bool.not_eq_true', decide_eq_true_iff,
        ← Bool.not_eq_true, List.isSuffixOf_iff_suffix]
      rfl
  | all tallies =>
      have hNear :
          (cache.drop (.all tallies)).near = cache.near.clear := by
        cases tallies <;> exact callShared_near _ _
      rw [hNear, Recency.entries_clear]
      exact (List.filter_eq_nil_iff.mpr fun _ _ => by
        simp [Scope.Removes]).symm

theorem mem_drop_near_iff
    {entry : Recency.Entry Bool} :
    entry ∈ (cache.drop scope).near.entries ↔
      entry ∈ cache.near.entries ∧ ¬ scope.Removes entry.key := by
  rw [drop_near_entries, List.mem_filter, decide_eq_true_iff]

/- A removal does the same to near caches that are the same. -/
theorem drop_near_congr
    {first second : PermissionCache Shared}
    (hNear : first.near = second.near)
    (scope : Scope) :
    (first.drop scope).near = (second.drop scope).near := by
  cases scope with
  | decision key =>
      simp only [drop, invalidate, callShared_near,
        tallyInvalidation, tally, hNear]
  | user id =>
      simp only [drop, invalidateUser, deleteShared,
        callShared_near, tallyInvalidation, tally, hNear]
  | object id =>
      simp only [drop, invalidateObject, deleteShared,
        callShared_near, tallyInvalidation, tally, hNear]
  | all tallies =>
      cases tallies <;>
        simp only [drop, invalidateAll, clear, forget_near,
          tallyInvalidation, tally, hNear]

/- The shared cache is called, if there is one. -/
theorem drop_shared
    (scope : Scope)
    (cache : PermissionCache Shared) :
    (cache.drop scope).shared =
      cache.shared.map fun shared =>
        (scope.call cache.settings.keyStart shared).2 := by
  cases scope with
  | decision key => exact callShared_shared _ _
  | user id => exact callShared_shared _ _
  | object id => exact callShared_shared _ _
  | all tallies =>
      cases tallies <;> exact callShared_shared _ _

/- A removal of all decisions empties the filter. -/
theorem drop_all_filter
    (tallies : Bool)
    (cache : PermissionCache Shared) :
    (cache.drop (.all tallies)).filter = cache.filter.clear := by
  cases tallies <;> exact callShared_filter _ _

/- No other removal changes it. -/
theorem drop_filter
    (hScope : ∀ tallies, scope ≠ .all tallies) :
    (cache.drop scope).filter = cache.filter := by
  cases scope with
  | decision key => exact callShared_filter _ _
  | user id => exact callShared_filter _ _
  | object id => exact callShared_filter _ _
  | all tallies => exact absurd rfl (hScope tallies)

theorem drop_filter_congr
    {first second : PermissionCache Shared}
    (hFilter : first.filter = second.filter)
    (scope : Scope) :
    (first.drop scope).filter = (second.drop scope).filter := by
  by_cases hScope : ∀ tallies, scope ≠ .all tallies
  · rw [drop_filter hScope, drop_filter hScope, hFilter]
  · simp only [not_forall, not_not] at hScope
    rcases hScope with ⟨tallies, rfl⟩
    rw [drop_all_filter, drop_all_filter, hFilter]

------------------------------------------------------------
-- Shared Decisions
------------------------------------------------------------

/- A value that is shared under the text of a decision. -/
def Held
    (laws : SharedCache.Laws Shared)
    (text value : Bytes)
    (cache : PermissionCache Shared) : Prop :=
  ∃ shared ∈ cache.shared,
    laws.Holds shared (cache.settings.keyStart ++ text) value

/- The call that removes decisions succeeds, if it is made. -/
def Called
    (scope : Scope)
    (cache : PermissionCache Shared) : Prop :=
  ∀ shared ∈ cache.shared,
    (scope.call cache.settings.keyStart shared).1.isSome

/- The lookup of a key there succeeds, if it is made. -/
def Asked
    (key : TupleKey)
    (cache : PermissionCache Shared) : Prop :=
  ∀ shared ∈ cache.shared,
    (SharedCache.get (cache.settings.keyStart ++ keyText key)
      shared).1.isSome

/- A cache whose shared keys start with no special signs. -/
abbrev Plain (cache : PermissionCache Shared) : Prop :=
  ∀ byte ∈ cache.settings.keyStart, Glob.isSpecial byte = false

/- After a removal is shared what its call has left. -/
theorem held_drop_iff :
    (cache.drop scope).Held laws text value ↔
      ∃ shared ∈ cache.shared,
        laws.Holds (scope.call cache.settings.keyStart shared).2
          (cache.settings.keyStart ++ text) value := by
  rw [Held, drop_shared, drop_settings]
  constructor
  · rintro ⟨after, hAfter, hHolds⟩
    rcases Option.map_eq_some_iff.mp hAfter with
      ⟨shared, hShared, rfl⟩
    exact ⟨shared, hShared, hHolds⟩
  · rintro ⟨shared, hShared, hHolds⟩
    exact ⟨_, Option.map_eq_some_iff.mpr ⟨shared, hShared, rfl⟩,
      hHolds⟩

/- A removal adds nothing to the shared cache. -/
theorem held_of_drop
    (hHeld : (cache.drop scope).Held laws text value) :
    cache.Held laws text value := by
  rcases held_drop_iff.mp hHeld with ⟨shared, hShared, hHolds⟩
  refine ⟨shared, hShared, ?_⟩
  cases scope with
  | decision key => exact laws.holds_delete hHolds
  | user id => exact laws.holds_deleteMatching hHolds
  | object id => exact laws.holds_deleteMatching hHolds
  | all tallies => exact laws.holds_deleteMatching hHolds

/- What a call removes, that succeeds, is no longer shared. -/
theorem not_removes_of_held
    (hPlain : cache.Plain)
    (hCalled : cache.Called scope)
    (hHeld : (cache.drop scope).Held laws text value) :
    ¬ scope.Removes text := by
  rcases held_drop_iff.mp hHeld with ⟨shared, hShared, hHolds⟩
  rcases Option.isSome_iff_exists.mp (hCalled shared hShared)
    with ⟨count, hCount⟩
  cases scope with
  | decision key =>
      intro hText
      refine laws.not_mem_of_delete hCount hHolds ?_
      rw [hText]
      exact List.mem_singleton_self _
  | user id =>
      intro hRemoves
      refine laws.not_matches_of_deleteMatching hCount hHolds ?_
      exact (Scope.stands_userStart_iff (Glob.rules_matches _)
        hPlain).mpr ⟨text, rfl, hRemoves⟩
  | object id =>
      intro hRemoves
      refine laws.not_matches_of_deleteMatching hCount hHolds ?_
      exact (Scope.stands_objectEnd_iff (Glob.rules_matches _)
        hPlain).mpr ⟨text, rfl, hRemoves⟩
  | all tallies =>
      intro hRemoves
      refine laws.not_matches_of_deleteMatching hCount hHolds ?_
      exact (Scope.stands_keyStart_iff (Glob.rules_matches _)
        hPlain).mpr ⟨text, rfl, hRemoves⟩

/-
  A shared cache that loses nothing goes on to hold what a
  removal spares, or what it fails to remove.
-/
theorem Held.drop
    (hLasting : laws.Lasting)
    (hPlain : cache.Plain)
    (hHeld : cache.Held laws text value)
    (hKept : scope.Removes text → ¬ cache.Called scope) :
    (cache.drop scope).Held laws text value := by
  rcases hHeld with ⟨shared, hShared, hHolds⟩
  have hFailed :
      scope.Removes text →
        (scope.call cache.settings.keyStart shared).1 = none := by
    intro hRemoves
    by_contra hDone
    refine hKept hRemoves fun other hOther => ?_
    rw [Option.mem_def, hShared] at hOther
    cases hOther
    exact Option.isSome_iff_ne_none.mpr hDone
  refine held_drop_iff.mpr ⟨shared, hShared, ?_⟩
  cases scope with
  | decision key =>
      refine hLasting.delete hHolds fun hMember => hFailed ?_
      exact List.append_cancel_left (List.mem_singleton.mp hMember)
  | user id =>
      refine hLasting.deleteMatching hHolds fun hMatches => ?_
      exact hFailed (Scope.copies_append_iff.mp
        ((Scope.stands_userStart_iff (Glob.rules_matches _)
          hPlain).mp hMatches))
  | object id =>
      refine hLasting.deleteMatching hHolds fun hMatches => ?_
      exact hFailed (Scope.copies_append_iff.mp
        ((Scope.stands_objectEnd_iff (Glob.rules_matches _)
          hPlain).mp hMatches))
  | all tallies =>
      exact hLasting.deleteMatching hHolds fun _ =>
        hFailed trivial

------------------------------------------------------------
-- Origins
------------------------------------------------------------

variable {now : Int}
variable {key : TupleKey}
variable {event : Event}
variable {entry : Recency.Entry Bool}

/- The near decisions that an operation leaves as they are. -/
def Operation.Spares (text : Bytes) : Operation → Prop
  | .get _ => True
  | .set key _ => text ≠ keyText key
  | .drop scope => ¬ scope.Removes text

section Lookups

variable {found : Option (Bool × Source)}
variable {after : PermissionCache Shared}

/- What is found is kept near, or shared. -/
theorem exists_of_lookup
    {allowed : Bool}
    {source : Source}
    (laws : SharedCache.Laws Shared)
    (hLookup :
      Lookup now key cache (some (allowed, source)) after) :
    (∃ entry ∈ cache.near.entries,
      entry.key = keyText key ∧ entry.value = allowed) ∨
      cache.filter.mightContain (keyText key) = true ∧
        ∃ value, cache.Held laws (keyText key) value ∧
          allowed = decide (value = allowedText) := by
  cases hLookup with
  | near hNear =>
      exact .inl
        (Recency.exists_entry_of_get (congrArg Prod.fst hNear))
  | @shared _ _ shared value _ hNear hFilter hShared hGet =>
      have hHolds := laws.holds_of_get (congrArg Prod.fst hGet)
      exact .inr
        ⟨hFilter, value, ⟨shared, hShared, hHolds⟩, rfl⟩

/- A lookup keeps near only what it finds. -/
theorem near_cases_of_lookup
    (laws : SharedCache.Laws Shared)
    (hLookup : Lookup now key cache found after)
    (hEntry : entry ∈ after.near.entries) :
    entry ∈ cache.near.entries ∨
      entry.key = keyText key ∧
        cache.filter.mightContain (keyText key) = true ∧
        ∃ value, cache.Held laws (keyText key) value ∧
          entry.value = decide (value = allowedText) := by
  have hOld {found near}
      (hNear :
        cache.near.get now (keyText key) = (found, near))
      (hMember : entry ∈ near.entries) :
      entry ∈ cache.near.entries := by
    apply Recency.mem_of_mem_get
    rw [hNear]
    exact hMember
  have hFound := hLookup
  cases hLookup with
  | near hNear => exact .inl (hOld hNear hEntry)
  | unasked hNear hUnasked => exact .inl (hOld hNear hEntry)
  | absent hNear hFilter hShared hGet hAnswer =>
      exact .inl (hOld hNear hEntry)
  | @shared _ _ shared value _ hNear hFilter hShared hGet =>
      rcases Recency.eq_or_mem_of_mem_put hEntry with
        rfl | hKept
      · have hHolds := laws.holds_of_get (congrArg Prod.fst hGet)
        exact .inr
          ⟨rfl, hFilter, value, ⟨shared, hShared, hHolds⟩, rfl⟩
      · exact .inl (hOld hNear hKept)

/- The shared cache after a lookup, if there is one. -/
theorem shared_of_lookup
    (hLookup : Lookup now key cache found after) :
    after.settings = cache.settings ∧
      after.filter = cache.filter ∧
      (after.shared = cache.shared ∨
        after.shared = cache.shared.map fun shared =>
          (SharedCache.get
            (cache.settings.keyStart ++ keyText key) shared).2) := by
  cases hLookup with
  | near hNear => exact ⟨rfl, rfl, .inl rfl⟩
  | unasked hNear hUnasked => exact ⟨rfl, rfl, .inl rfl⟩
  | absent hNear hFilter hShared hGet hAnswer =>
      refine ⟨rfl, rfl, .inr ?_⟩
      rw [hShared, Option.map_some, hGet]
  | shared hNear hFilter hShared hGet =>
      refine ⟨rfl, rfl, .inr ?_⟩
      rw [hShared, Option.map_some, hGet]

/- A lookup adds nothing to the shared cache. -/
theorem held_of_lookup
    (hLookup : Lookup now key cache found after)
    (hHeld : after.Held laws text value) :
    cache.Held laws text value := by
  rcases shared_of_lookup hLookup with
    ⟨hSettings, _, hShared⟩
  rcases hHeld with ⟨shared, hMember, hHolds⟩
  rw [hSettings] at hHolds
  rcases hShared with hSame | hCalled
  · exact ⟨shared, hSame ▸ hMember, hHolds⟩
  · rw [hCalled] at hMember
    rcases Option.map_eq_some_iff.mp hMember with
      ⟨before, hBefore, rfl⟩
    exact ⟨before, hBefore, laws.holds_get hHolds⟩

/- Nor does it lose anything, if the shared cache does not. -/
theorem Held.lookup
    (hLasting : laws.Lasting)
    (hLookup : Lookup now key cache found after)
    (hHeld : cache.Held laws text value) :
    after.Held laws text value := by
  rcases shared_of_lookup hLookup with
    ⟨hSettings, _, hShared⟩
  rcases hHeld with ⟨shared, hMember, hHolds⟩
  rw [Held, hSettings]
  rcases hShared with hSame | hCalled
  · exact ⟨shared, hSame ▸ hMember, hHolds⟩
  · rw [hCalled, hMember]
    exact ⟨_, rfl, hLasting.get hHolds⟩

/-
  A lookup that finds nothing near, and that the filter lets
  through, finds what the shared cache answers.
-/
theorem eq_of_lookup
    {shared : Shared}
    (hLookup : Lookup now key cache found after)
    (hNear : (cache.near.get now (keyText key)).1 = none)
    (hFilter : cache.filter.mightContain (keyText key) = true)
    (hShared : cache.shared = some shared)
    (hGet :
      (SharedCache.get (cache.settings.keyStart ++ keyText key)
        shared).1 = some (some value)) :
    found = some (decide (value = allowedText), .shared) := by
  cases hLookup with
  | near hFound =>
      rw [hFound] at hNear
      cases hNear
  | unasked _ hUnasked =>
      rw [hFilter, hShared] at hUnasked
      rcases hUnasked with hDenied | hMissing
      · cases hDenied
      · cases hMissing
  | absent _ _ hOther hAnswer hNone =>
      rw [hShared] at hOther
      cases hOther
      rw [hAnswer] at hGet
      cases hGet
      cases hNone
  | shared _ _ hOther hAnswer =>
      rw [hShared] at hOther
      cases hOther
      rw [hAnswer] at hGet
      cases hGet
      rfl

/-
  So it finds what is shared, if the shared cache has lost
  nothing and the lookup there succeeds.
-/
theorem get_of_held
    (hLasting : laws.Lasting)
    (hNear : (cache.near.get now (keyText key)).1 = none)
    (hFilter : cache.filter.mightContain (keyText key) = true)
    (hHeld : cache.Held laws (keyText key) value)
    (hAsked : cache.Asked key) :
    ∃ value, cache.Held laws (keyText key) value ∧
      (cache.get now key).1 =
        some (decide (value = allowedText), .shared) := by
  rcases hHeld with ⟨shared, hShared, hHolds⟩
  rcases Option.isSome_iff_exists.mp (hAsked shared hShared) with
    ⟨answer, hAnswer⟩
  rcases hLasting.found_of_holds hHolds hAnswer with
    ⟨found, rfl⟩
  refine ⟨found, ⟨shared, hShared, laws.holds_of_get hAnswer⟩, ?_⟩
  exact eq_of_lookup (lookup_get now key cache) hNear hFilter
    hShared hAnswer

end Lookups

/- A set adds a decision to the shared cache if it is allowed. -/
theorem held_cases_of_set
    {allowed : Bool}
    (hHeld : (cache.set now key allowed).Held laws text value) :
    cache.Held laws text value ∨
      allowed = true ∧ text = keyText key ∧
        value = allowedText := by
  rcases hHeld with ⟨shared, hMember, hHolds⟩
  rw [set_shared] at hMember
  rw [set_settings] at hHolds
  split at hMember
  · next hAllowed =>
      rcases Option.map_eq_some_iff.mp hMember with
        ⟨before, hBefore, rfl⟩
      rcases laws.holds_put hHolds with ⟨hText, hValue⟩ | hOld
      · exact .inr
          ⟨hAllowed, List.append_cancel_left hText, hValue⟩
      · exact .inl ⟨before, hBefore, hOld⟩
  · exact .inl ⟨shared, hMember, hHolds⟩

/- What is shared stays so, unless it is allowed anew. -/
theorem Held.set
    (hLasting : laws.Lasting)
    (hHeld : cache.Held laws text value)
    (hOther : allowed = true → text ≠ keyText key) :
    (cache.set now key allowed).Held laws text value := by
  rcases hHeld with ⟨shared, hMember, hHolds⟩
  rw [Held, set_shared, set_settings]
  cases allowed with
  | false => exact ⟨shared, hMember, hHolds⟩
  | true =>
      rw [if_pos rfl, hMember]
      refine ⟨_, rfl, hLasting.put_other hHolds ?_⟩
      exact fun hSame => hOther rfl (List.append_cancel_left hSame)

------------------------------------------------------------
-- Events
------------------------------------------------------------

@[simp] theorem perform_settings
    (event : Event)
    (cache : PermissionCache Shared) :
    (cache.perform event).settings = cache.settings := by
  rcases event with ⟨now, key | ⟨key, allowed⟩ | scope⟩
  · exact (shared_of_lookup (lookup_get now key cache)).1
  · exact set_settings now key allowed cache
  · exact drop_settings scope cache

/-
  Where a near decision comes from: it was near before and the
  operation has spared it, or it was set, or found shared.
-/
theorem near_cases
    (laws : SharedCache.Laws Shared)
    (hEntry : entry ∈ (cache.perform event).near.entries) :
    entry ∈ cache.near.entries ∧
        event.operation.Spares entry.key ∨
      (∃ key, event.operation = .set key entry.value ∧
        entry.key = keyText key) ∨
      ∃ key, event.operation = .get key ∧
        entry.key = keyText key ∧
          cache.filter.mightContain (keyText key) = true ∧
          ∃ value, cache.Held laws (keyText key) value ∧
            entry.value = decide (value = allowedText) := by
  rcases event with ⟨now, key | ⟨key, allowed⟩ | scope⟩
  · rcases near_cases_of_lookup laws (lookup_get now key cache)
      hEntry with hOld | ⟨hText, hFound⟩
    · exact .inl ⟨hOld, trivial⟩
    · exact .inr (.inr ⟨key, rfl, hText, hFound⟩)
  · rw [perform, set_near] at hEntry
    rcases Recency.eq_or_other_of_mem_put hEntry with
      rfl | hOld
    · exact .inr (.inl ⟨key, rfl, rfl⟩)
    · exact .inl hOld
  · exact .inl (mem_drop_near_iff.mp hEntry)

/-
  Where a shared decision comes from: it was shared before and
  is not one that the operation removes, or it was allowed.
-/
theorem held_cases
    (hPlain : cache.Plain)
    (hHeld : (cache.perform event).Held laws text value) :
    cache.Held laws text value ∧
        (∀ scope, event.operation = .drop scope →
          cache.Called scope → ¬ scope.Removes text) ∨
      ∃ key, event.operation = .set key true ∧
        text = keyText key ∧ value = allowedText := by
  rcases event with ⟨now, key | ⟨key, allowed⟩ | scope⟩
  · exact .inl
      ⟨held_of_lookup (lookup_get now key cache) hHeld, nofun⟩
  · rcases held_cases_of_set hHeld with
      hOld | ⟨rfl, hText, hValue⟩
    · exact .inl ⟨hOld, nofun⟩
    · exact .inr ⟨key, rfl, hText, hValue⟩
  · refine .inl ⟨held_of_drop hHeld, ?_⟩
    rintro _ ⟨⟩ hCalled
    exact not_removes_of_held hPlain hCalled hHeld

/-
  A shared decision stays so, unless it is allowed anew or is
  one that the operation removes.
-/
theorem Held.perform
    (hLasting : laws.Lasting)
    (hPlain : cache.Plain)
    (hHeld : cache.Held laws text value)
    (hSet : ∀ key, event.operation = .set key true →
      text ≠ keyText key)
    (hDrop : ∀ scope, event.operation = .drop scope →
      ¬ scope.Removes text) :
    (cache.perform event).Held laws text value := by
  rcases event with ⟨now, key | ⟨key, allowed⟩ | scope⟩
  · exact hHeld.lookup hLasting (lookup_get now key cache)
  · refine hHeld.set hLasting ?_
    rintro rfl
    exact hSet key rfl
  · refine hHeld.drop hLasting hPlain ?_
    intro hRemoves
    exact absurd hRemoves (hDrop scope rfl)

/- An event does not take the shared cache away. -/
theorem isSome_perform
    (hShared : cache.shared.isSome)
    (event : Event) :
    (cache.perform event).shared.isSome := by
  rcases event with ⟨now, key | ⟨key, allowed⟩ | scope⟩
  · rcases (shared_of_lookup (lookup_get now key cache)).2.2 with
      hSame | hCalled
    · rw [perform, hSame]
      exact hShared
    · rw [perform, hCalled, Option.isSome_map]
      exact hShared
  · rw [perform, set_shared]
    split
    · rw [Option.isSome_map]
      exact hShared
    · exact hShared
  · rw [perform, drop_shared, Option.isSome_map]
    exact hShared

/- The filter keeps its size. -/
theorem size_perform (event : Event) :
    (cache.perform event).filter.slots.size =
      cache.filter.slots.size := by
  rcases event with ⟨now, key | ⟨key, allowed⟩ | scope⟩
  · rw [perform, (shared_of_lookup (lookup_get now key cache)).2.1]
  · rw [perform, set_filter]
    cases allowed with
    | true => exact (Bloom.grown_add _ _).size
    | false => rfl
  · by_cases hScope : ∀ tallies, scope ≠ .all tallies
    · rw [perform, drop_filter hScope]
    · simp only [not_forall, not_not] at hScope
      rcases hScope with ⟨tallies, rfl⟩
      rw [perform, drop_all_filter, Bloom.size_clear]

/- Unless all decisions are forgotten, the filter only grows. -/
theorem grown_of_not_all
    (hEvent : ∀ tallies, event.operation ≠ .drop (.all tallies)) :
    cache.filter.Grown (cache.perform event).filter := by
  rcases event with ⟨now, other | ⟨other, allowed⟩ | scope⟩
  · rw [perform,
      (shared_of_lookup (lookup_get now other cache)).2.1]
    exact .refl _
  · rw [perform, set_filter]
    cases allowed with
    | true => exact Bloom.grown_add _ _
    | false => exact .refl _
  · have hScope : ∀ tallies, scope ≠ .all tallies := by
      rintro tallies rfl
      exact hEvent tallies rfl
    rw [perform, drop_filter hScope]
    exact .refl _

/- So it does until a key is forgotten. -/
theorem grown_perform
    (hKept : ¬ event.Drops key) :
    cache.filter.Grown (cache.perform event).filter :=
  grown_of_not_all fun _ hAll => hKept ⟨_, hAll, trivial⟩

/- A key is set where a key of the same text is. -/
theorem sets_of_keyText_eq
    {other : TupleKey}
    {allowed : Bool}
    (hKey : key.NoBar)
    (hSet : event.operation = .set other allowed)
    (hText : keyText key = keyText other) :
    event.Sets key allowed := by
  have hSame : other = key := eq_of_keyText_eq hKey hText.symm
  rw [Event.Sets, hSet, hSame]

/- A key is forgotten where its text is removed. -/
theorem drops_iff
    (hEvent : event.operation.NoBar)
    (hKey : key.NoBar) :
    event.Drops key ↔
      ∃ scope, event.operation = .drop scope ∧
        scope.Removes (keyText key) := by
  refine exists_congr fun scope => and_congr_right fun hDrop => ?_
  rw [hDrop] at hEvent
  exact (Scope.removes_iff hEvent hKey).symm

/- A lookup forgets nothing. -/
theorem not_drops_of_get
    {other : TupleKey}
    (hGet : event.operation = .get other) :
    ¬ event.Drops key := by
  rintro ⟨scope, hDrop, _⟩
  cases hGet.symm.trans hDrop

/- An event that spares a text neither sets nor forgets it. -/
theorem continues_of_spares
    (hEvent : event.operation.NoBar)
    (hKey : key.NoBar)
    (hSpares : event.operation.Spares (keyText key)) :
    ¬ event.Drops key ∧ ∀ other, ¬ event.Sets key other := by
  rw [drops_iff hEvent hKey]
  constructor
  · rintro ⟨scope, hDrop, hRemoves⟩
    rw [hDrop] at hSpares
    exact hSpares hRemoves
  · intro other hSets
    rw [hSets] at hSpares
    exact hSpares rfl

end PermissionCache

end Rebac
