import Rebac.Proofs.Cache.Recall

/-
  This file proves that the filter of a cache saves calls to
  the shared cache, and changes nothing else.

  A cache with the filter is compared with one that asks the
  shared cache about every decision that is not near. The
  shared caches see different calls. They differ in lookups
  that find nothing, and so no later lookup tells them apart.
  That they find nothing holds because every shared key is
  let through by the filter, which is only emptied together
  with the shared cache.

  Key definitions include:
    * `SharedCache.Alike`
    * `SharedCache.Undisturbed`
    * `PermissionCache.getUnfiltered`
    * `PermissionCache.answers`
    * `PermissionCache.Gated`
    * `PermissionCache.Mirrors`

  Key theorems include:
    * `PermissionCache.Gated.perform`
    * `PermissionCache.Mirrors.get`
    * `PermissionCache.Mirrors.perform`
    * `PermissionCache.answers_unfiltered`
-/

namespace Rebac

------------------------------------------------------------
-- Shared Caches over Time
------------------------------------------------------------

namespace SharedCache

/- What can happen to a shared cache: a call, or time passes. -/
inductive Step where
  | get (key : Bytes)
  | put (key : Bytes) (seconds : Nat) (value : Bytes)
  | delete (keys : List Bytes)
  | deleteMatching (pattern : Bytes)
  | pass (now : Int)
  deriving DecidableEq, Repr

variable {Shared : Type} [SharedCache Shared]

/-
  The state after a step. How time passes is up to the shared
  cache: values may expire, for instance.
-/
def Step.apply
    (pass : Int → Shared → Shared)
    (step : Step)
    (shared : Shared) : Shared :=
  match step with
  | .get key => (SharedCache.get key shared).2
  | .put key seconds value =>
      (SharedCache.put key seconds value shared).2
  | .delete keys => (SharedCache.delete keys shared).2
  | .deleteMatching pattern =>
      (SharedCache.deleteMatching pattern shared).2
  | .pass now => pass now shared

/-
  Two states that no lookup tells apart, whatever steps come
  before it.
-/
def Alike
    (pass : Int → Shared → Shared)
    (first second : Shared) : Prop :=
  ∀ (steps : List Step) (key : Bytes),
    (get key (steps.foldl (fun state step => step.apply pass state)
      first)).1 =
    (get key (steps.foldl (fun state step => step.apply pass state)
      second)).1

namespace Alike

variable {pass : Int → Shared → Shared}
variable {first second third : Shared}

theorem trans
    (hFirst : Alike pass first second)
    (hSecond : Alike pass second third) :
    Alike pass first third :=
  fun steps key => (hFirst steps key).trans (hSecond steps key)

theorem symm
    (hAlike : Alike pass first second) :
    Alike pass second first :=
  fun steps key => (hAlike steps key).symm

theorem found
    (hAlike : Alike pass first second)
    (key : Bytes) :
    (get key first).1 = (get key second).1 :=
  hAlike [] key

theorem apply
    (hAlike : Alike pass first second)
    (step : Step) :
    Alike pass (step.apply pass first) (step.apply pass second) :=
  fun steps key => hAlike (step :: steps) key

/-
  States are alike if a relation between them is kept by every
  step, and related states answer lookups in the same way.
-/
theorem of_related
    {Related : Shared → Shared → Prop}
    (hFound : ∀ {first second}, Related first second →
      ∀ key, (get key first).1 = (get key second).1)
    (hApply : ∀ {first second}, Related first second →
      ∀ step : Step,
        Related (step.apply pass first) (step.apply pass second))
    (hRelated : Related first second) :
    Alike pass first second := by
  intro steps
  induction steps generalizing first second with
  | nil => exact hFound hRelated
  | cons step others hOthers =>
      exact hOthers (hApply hRelated step)

end Alike

/-
  A shared cache that never fails, however much time passes,
  and that holds only what is put. A lookup that finds nothing
  leaves it as it was, as far as lookups tell.
-/
structure Undisturbed
    (laws : Laws Shared)
    (Works : Shared → Prop)
    (pass : Int → Shared → Shared) : Prop where
  reliable : Reliable Works
  works_pass : ∀ {now shared}, Works shared →
    Works (pass now shared)
  holds_pass : ∀ {now shared key value},
    laws.Holds (pass now shared) key value →
      laws.Holds shared key value
  alike_get : ∀ {key shared}, (get key shared).1 = some none →
    Alike pass (get key shared).2 shared

end SharedCache

namespace PermissionCache

open SharedCache (Alike Undisturbed Step)

variable {Shared : Type} [SharedCache Shared]

------------------------------------------------------------
-- Lookups without the Filter
------------------------------------------------------------

/-
  Looks up a decision without the filter. The shared cache is
  asked about every decision that is not near.
-/
def getUnfiltered
    (now : Int)
    (key : TupleKey)
    (cache : PermissionCache Shared) :
    Option (Bool × Source) × PermissionCache Shared :=
  let text := keyText key
  let (found, near) := cache.near.get now text
  let cache := { cache with near := near }
  match found with
  | some allowed =>
      (some (allowed, .near), cache.tally fun tallies =>
        { tallies with nearHits := tallies.nearHits + 1 })
  | none =>
      let cache := cache.tally fun tallies =>
        { tallies with nearMisses := tallies.nearMisses + 1 }
      match cache.shared with
      | some shared => cache.getShared now text shared
      | none => (none, cache)

/- The cache at a time: it has passed for the shared cache. -/
def await
    (pass : Int → Shared → Shared)
    (now : Int)
    (cache : PermissionCache Shared) : PermissionCache Shared :=
  { cache with shared := cache.shared.map (pass now) }

/-
  What is found during some events, if decisions are looked up
  in the given way.
-/
def answers
    (pass : Int → Shared → Shared)
    (look : Int → TupleKey → PermissionCache Shared →
      Option (Bool × Source) × PermissionCache Shared) :
    List Event → PermissionCache Shared →
      List (Option (Bool × Source))
  | [], _ => []
  | ⟨now, .get key⟩ :: others, cache =>
      let (found, after) := look now key (cache.await pass now)
      found :: answers pass look others after
  | event :: others, cache =>
      answers pass look others
        ((cache.await pass event.now).perform event)

------------------------------------------------------------
-- Keys that are Let Through
------------------------------------------------------------

variable {laws : SharedCache.Laws Shared}
variable {Works : Shared → Prop}
variable {pass : Int → Shared → Shared}
variable {cache first second : PermissionCache Shared}
variable {now : Int}
variable {key : TupleKey}
variable {event : Event}

/- A usable cache whose filter lets every shared key through. -/
structure Gated
    (laws : SharedCache.Laws Shared)
    (Works : Shared → Prop)
    (cache : PermissionCache Shared) : Prop where
  usable : cache.Usable Works
  slots : 0 < cache.filter.slots.size
  lets : ∀ {text value}, cache.Held laws text value →
    cache.filter.mightContain text = true

namespace Gated

theorem of_fresh
    (hUsable : cache.Usable Works)
    (hFresh : cache.Fresh laws) :
    cache.Gated laws Works where
  usable := hUsable
  slots := hFresh.slots
  lets hHeld := absurd hHeld (hFresh.shared _ _)

/- While time passes, keys may only go. -/
theorem await
    (hShared : Undisturbed laws Works pass)
    (hGated : cache.Gated laws Works)
    (now : Int) :
    (cache.await pass now).Gated laws Works where
  usable := by
    refine ⟨hGated.usable.plain, fun shared hMember => ?_⟩
    rcases Option.map_eq_some_iff.mp hMember with
      ⟨before, hBefore, rfl⟩
    exact hShared.works_pass (hGated.usable.works before hBefore)
  slots := hGated.slots
  lets := by
    rintro text value ⟨shared, hMember, hHolds⟩
    rcases Option.map_eq_some_iff.mp hMember with
      ⟨before, hBefore, rfl⟩
    exact hGated.lets ⟨before, hBefore, hShared.holds_pass hHolds⟩

/-
  Keys are added to the filter when they are put, and it is
  emptied only when all of them are deleted.
-/
theorem perform
    (hShared : Undisturbed laws Works pass)
    (hGated : cache.Gated laws Works)
    (event : Event) :
    (cache.perform event).Gated laws Works where
  usable := hGated.usable.perform hShared.reliable event
  slots := by
    rw [size_perform]
    exact hGated.slots
  lets := by
    intro text value hHeld
    rcases held_cases hGated.usable.plain hHeld with
      ⟨hOld, hSpared⟩ | ⟨key, hSet, rfl, _⟩
    · have hNotAll :
          ∀ tallies, event.operation ≠ .drop (.all tallies) :=
        fun tallies hAll => hSpared _ hAll
          (hGated.usable.called hShared.reliable _) trivial
      exact (grown_of_not_all hNotAll).mightContain
        (hGated.lets hOld)
    · rw [PermissionCache.perform, hSet, set_filter, if_pos rfl]
      exact Bloom.mightContain_add hGated.slots _

/- What the filter denies is not found in the shared cache. -/
theorem get_eq
    {shared : Shared}
    (hShared : Undisturbed laws Works pass)
    (hGated : cache.Gated laws Works)
    (hMember : cache.shared = some shared)
    (hDenied : cache.filter.mightContain (keyText key) = false) :
    (SharedCache.get (cache.settings.keyStart ++ keyText key)
      shared).1 = some none := by
  have hWorks := hGated.usable.works shared hMember
  rcases Option.isSome_iff_exists.mp
      (hShared.reliable.get
        (cache.settings.keyStart ++ keyText key) hWorks).1 with
    ⟨_ | value, hAnswer⟩
  · exact hAnswer
  · have hLets := hGated.lets
      ⟨shared, hMember, laws.holds_of_get hAnswer⟩
    rw [hDenied] at hLets
    cases hLets

end Gated

------------------------------------------------------------
-- Two Caches
------------------------------------------------------------

/-
  Two caches with the same near decisions and the same filter,
  in front of shared caches that no lookup tells apart. What
  they have counted may differ.
-/
structure Mirrors
    (pass : Int → Shared → Shared)
    (first second : PermissionCache Shared) : Prop where
  settings : first.settings = second.settings
  near : first.near = second.near
  filter : first.filter = second.filter
  shared : ∃ one other, first.shared = some one ∧
    second.shared = some other ∧ Alike pass one other

/- What a lookup in the shared cache finds, and what it leaves. -/
theorem exists_getShared
    {shared after : Shared}
    {text : Bytes}
    {answer : Option (Option Bytes)}
    (hGet :
      SharedCache.get (cache.settings.keyStart ++ text) shared =
        (answer, after))
    (now : Int) :
    ∃ tallies,
      cache.getShared now text shared =
        (answer.join.map fun value =>
            (decide (value = allowedText), .shared),
          { cache with
            near :=
              answer.join.elim cache.near fun value =>
                cache.near.put now text
                  (decide (value = allowedText))
            shared := some after
            tallies := tallies }) := by
  rw [PermissionCache.getShared, hGet]
  rcases answer with _ | _ | value
  · exact ⟨_, rfl⟩
  · exact ⟨_, rfl⟩
  · exact ⟨_, rfl⟩

namespace Mirrors

variable {one other : Shared}

/- The same is found in shared caches that are alike. -/
theorem getShared
    (hMirrors : first.Mirrors pass second)
    (hAlike : Alike pass one other)
    (now : Int)
    (text : Bytes) :
    (first.getShared now text one).1 =
        (second.getShared now text other).1 ∧
      (first.getShared now text one).2.Mirrors pass
        (second.getShared now text other).2 := by
  have hFound := hAlike.found (first.settings.keyStart ++ text)
  have hAfter := hAlike.apply
    (.get (first.settings.keyStart ++ text))
  rw [Step.apply, Step.apply] at hAfter
  rcases hOne : SharedCache.get
      (first.settings.keyStart ++ text) one with ⟨answer, _⟩
  rcases hOther : SharedCache.get
      (first.settings.keyStart ++ text) other with ⟨_, _⟩
  rw [hOne, hOther] at hFound hAfter
  cases hFound
  rw [hMirrors.settings] at hOther
  rcases exists_getShared hOne now with ⟨_, hFirst⟩
  rcases exists_getShared hOther now with ⟨_, hSecond⟩
  rw [hFirst, hSecond]
  refine ⟨rfl, hMirrors.settings, ?_, hMirrors.filter, _, _, rfl,
    rfl, hAfter⟩
  dsimp only
  rw [hMirrors.near]

/- Where nothing is found, the caches stay alike. -/
theorem getShared_absent
    {text : Bytes}
    (hShared : Undisturbed laws Works pass)
    (hMirrors : first.Mirrors pass second)
    (hOne : first.shared = some one)
    (hAlike : Alike pass one other)
    (hAbsent :
      (SharedCache.get (second.settings.keyStart ++ text) other).1 =
        some none)
    (now : Int) :
    none = (second.getShared now text other).1 ∧
      first.Mirrors pass (second.getShared now text other).2 := by
  have hAfter := hAlike.trans (hShared.alike_get hAbsent).symm
  rcases hOther : SharedCache.get
      (second.settings.keyStart ++ text) other with ⟨_, _⟩
  rw [hOther] at hAbsent hAfter
  cases hAbsent
  rcases exists_getShared hOther now with ⟨_, hSecond⟩
  rw [hSecond]
  exact ⟨rfl, hMirrors.settings, hMirrors.near, hMirrors.filter,
    _, _, hOne, rfl, hAfter⟩

/-
  A lookup finds the same with and without the filter: what
  the filter denies would not be found in the shared cache.
-/
theorem get
    (hShared : Undisturbed laws Works pass)
    (hGated : first.Gated laws Works)
    (hMirrors : first.Mirrors pass second)
    (now : Int)
    (key : TupleKey) :
    (first.get now key).1 = (second.getUnfiltered now key).1 ∧
      (first.get now key).2.Mirrors pass
        (second.getUnfiltered now key).2 := by
  rcases hMirrors.shared with ⟨one, other, hOne, hOther, hAlike⟩
  rw [PermissionCache.get, getUnfiltered, ← hMirrors.near]
  dsimp only [tally]
  rcases first.near.get now (keyText key) with ⟨_ | allowed, near⟩
  · cases hFilter : first.filter.mightContain (keyText key) with
    | true =>
        rw [hOne, hOther]
        refine getShared ?_ hAlike now (keyText key)
        exact ⟨hMirrors.settings, rfl, hMirrors.filter, one, other,
          rfl, rfl, hAlike⟩
    | false =>
        have hAbsent := hGated.get_eq hShared hOne hFilter
        rw [hAlike.found, hMirrors.settings] at hAbsent
        rw [hOne, hOther]
        refine getShared_absent hShared ?_ rfl hAlike ?_ now
        · exact ⟨hMirrors.settings, rfl, hMirrors.filter, one,
            other, rfl, rfl, hAlike⟩
        · exact hAbsent
  · exact ⟨rfl, hMirrors.settings, rfl, hMirrors.filter,
      one, other, hOne, hOther, hAlike⟩

/- All other operations act alike on both caches. -/
theorem perform
    (hMirrors : first.Mirrors pass second)
    (hEvent : ∀ key, event.operation ≠ .get key) :
    (first.perform event).Mirrors pass (second.perform event) := by
  rcases hMirrors.shared with ⟨one, other, hOne, hOther, hAlike⟩
  rcases event with ⟨now, key | ⟨key, allowed⟩ | scope⟩
  · exact absurd rfl (hEvent key)
  · refine ⟨?_, ?_, ?_, ?_⟩
    · simp only [PermissionCache.perform, set_settings,
        hMirrors.settings]
    · simp only [PermissionCache.perform, set_near, hMirrors.near]
    · simp only [PermissionCache.perform, set_filter,
        hMirrors.filter]
    · simp only [PermissionCache.perform, set_shared, hOne, hOther,
        hMirrors.settings]
      cases allowed with
      | true => exact ⟨_, _, rfl, rfl, hAlike.apply (.put _ _ _)⟩
      | false => exact ⟨one, other, rfl, rfl, hAlike⟩
  · refine ⟨?_, ?_, ?_, ?_⟩
    · simp only [PermissionCache.perform, drop_settings,
        hMirrors.settings]
    · exact drop_near_congr hMirrors.near scope
    · exact drop_filter_congr hMirrors.filter scope
    · simp only [PermissionCache.perform, drop_shared, hOne, hOther,
        hMirrors.settings]
      refine ⟨_, _, rfl, rfl, ?_⟩
      cases scope with
      | decision key => exact hAlike.apply (.delete _)
      | user id => exact hAlike.apply (.deleteMatching _)
      | object id => exact hAlike.apply (.deleteMatching _)
      | all tallies => exact hAlike.apply (.deleteMatching _)

theorem await
    (hMirrors : first.Mirrors pass second)
    (now : Int) :
    (first.await pass now).Mirrors pass
      (second.await pass now) := by
  rcases hMirrors.shared with ⟨one, other, hOne, hOther, hAlike⟩
  refine ⟨hMirrors.settings, hMirrors.near, hMirrors.filter,
    pass now one, pass now other, ?_, ?_, hAlike.apply (.pass now)⟩
  · rw [PermissionCache.await, hOne]
    rfl
  · rw [PermissionCache.await, hOther]
    rfl

end Mirrors

------------------------------------------------------------
-- Runs
------------------------------------------------------------

theorem answers_eq_of_mirrors
    (hShared : Undisturbed laws Works pass)
    (hGated : first.Gated laws Works)
    (hMirrors : first.Mirrors pass second)
    (events : List Event) :
    first.answers pass get events =
      second.answers pass getUnfiltered events := by
  induction events generalizing first second with
  | nil => rfl
  | cons event others hOthers =>
      have hReady := hGated.await hShared event.now
      have hAfter := hReady.perform hShared event
      have hPair := hMirrors.await event.now
      rcases event with ⟨now, key | ⟨key, allowed⟩ | scope⟩
      · rcases hPair.get hShared hReady now key with
          ⟨hFound, hNext⟩
        exact congrArg₂ List.cons hFound (hOthers hAfter hNext)
      · exact hOthers hAfter (hPair.perform nofun)
      · exact hOthers hAfter (hPair.perform nofun)

/-
  From an empty cache on, whatever happens and however much
  time passes, every lookup finds the same decision at the
  same place as without the filter, if nothing was shared
  before and the shared cache never fails.
-/
theorem answers_unfiltered
    (hShared : Undisturbed laws Works pass)
    {settings : Settings}
    (hPlain : ∀ byte ∈ settings.keyStart,
      Glob.isSpecial byte = false)
    {shared : Shared}
    (hWorks : Works shared)
    (hEmpty : ∀ key value, ¬ laws.Holds shared key value)
    (events : List Event) :
    (empty settings (some shared)).answers pass get events =
      (empty settings (some shared)).answers pass getUnfiltered
        events := by
  have hUsable : (empty settings (some shared)).Usable Works := by
    refine ⟨hPlain, ?_⟩
    rintro _ ⟨⟩
    exact hWorks
  have hFresh : (empty settings (some shared)).Fresh laws := by
    refine fresh_empty ?_
    rintro _ ⟨⟩ text value
    exact hEmpty _ value
  exact answers_eq_of_mirrors hShared (.of_fresh hUsable hFresh)
    ⟨rfl, rfl, rfl, shared, shared, rfl, rfl, fun _ _ => rfl⟩ events

end PermissionCache

------------------------------------------------------------
-- An Example
------------------------------------------------------------

namespace Readers

open PermissionCache

/- What is shared expires after half a second. -/
def expire (now : Int) (keyspace : Keyspace) : Keyspace :=
  if now < 500 then keyspace else { keyspace with entries := [] }

/- Keyspaces that differ only in what they have recorded. -/
structure SameEntries (first second : Keyspace) : Prop where
  dialect : first.dialect = second.dialect
  entries : first.entries = second.entries
  available : first.available = second.available

theorem SameEntries.call
    {Result : Type}
    {request : Keyspace.Call}
    {action : Keyspace → Result × Keyspace}
    {first second : Keyspace}
    (hSame : SameEntries first second)
    (hAction : ∀ {first second}, SameEntries first second →
      SameEntries (action first).2 (action second).2) :
    SameEntries (Keyspace.call request action first).2
      (Keyspace.call request action second).2 := by
  rw [Keyspace.call_eq, Keyspace.call_eq, ← hSame.available]
  split
  · exact hAction ⟨hSame.dialect, hSame.entries, hSame.available⟩
  · exact ⟨hSame.dialect, hSame.entries, hSame.available⟩

theorem SameEntries.apply
    {first second : Keyspace}
    (hSame : SameEntries first second)
    (step : SharedCache.Step) :
    SameEntries (step.apply expire first)
      (step.apply expire second) := by
  cases step with
  | get key => exact hSame.call id
  | put key seconds value =>
      refine hSame.call fun hReady => ⟨hReady.dialect, ?_,
        hReady.available⟩
      simp only [Keyspace.insert, Keyspace.keep, hReady.entries]
  | delete keys =>
      refine hSame.call fun hReady => ⟨hReady.dialect, ?_,
        hReady.available⟩
      simp only [Keyspace.removeAll, Keyspace.retain, Keyspace.keep,
        hReady.entries]
  | deleteMatching pattern =>
      refine hSame.call fun hReady => ⟨hReady.dialect, ?_,
        hReady.available⟩
      simp only [Keyspace.removeMatching, Keyspace.retain,
        Keyspace.keep, hReady.entries, hReady.dialect]
  | pass now =>
      rw [SharedCache.Step.apply, expire, SharedCache.Step.apply,
        expire]
      split
      · exact hSame
      · exact ⟨hSame.dialect, rfl, hSame.available⟩

theorem SameEntries.found
    {first second : Keyspace}
    (hSame : SameEntries first second)
    (key : Bytes) :
    (SharedCache.get key first).1 =
      (SharedCache.get key second).1 := by
  change (Keyspace.call _ _ _).1 = (Keyspace.call _ _ _).1
  rw [Keyspace.call_eq, Keyspace.call_eq, ← hSame.available]
  split
  · simp only [Keyspace.find?, Keyspace.recorded, hSame.entries]
  · rfl

/- A lookup changes only what is recorded. -/
theorem sameEntries_get
    (key : Bytes)
    (keyspace : Keyspace) :
    SameEntries (SharedCache.get key keyspace).2 keyspace := by
  change SameEntries (Keyspace.call _ _ _).2 _
  rw [Keyspace.call_eq]
  split <;> exact ⟨rfl, rfl, rfl⟩

theorem undisturbed :
    SharedCache.Undisturbed Keyspace.laws
      (fun keyspace => keyspace.available = true) expire where
  reliable := Keyspace.reliable
  works_pass := by
    intro now keyspace hWorks
    rw [expire]
    split <;> exact hWorks
  holds_pass := by
    intro now keyspace key value hHolds
    rw [expire] at hHolds
    split at hHolds
    · exact hHolds
    · cases hHolds
  alike_get := by
    intro key keyspace _
    exact .of_related SameEntries.found SameEntries.apply
      (sameEntries_get key keyspace)

/- Near decisions live for a tenth of a second. -/
def brief : Settings :=
  { cache.settings with nearLifetime := 100 }

/-
  A decision is found near, then shared, and then it has
  expired. Another one is never found.
-/
theorem gated_answers :
    (∀ byte ∈ brief.keyStart, Glob.isSpecial byte = false) ∧
      (empty brief (some { dialect := .full })).answers expire get
          [⟨0, .set key true⟩, ⟨50, .get key⟩, ⟨200, .get key⟩,
            ⟨200, .get { key with user := utf8 "user:bob" }⟩,
            ⟨600, .get key⟩] =
        [some (true, .near), some (true, .shared), none, none] := by
  have hPlain :
      ∀ byte ∈ brief.keyStart, Glob.isSpecial byte = false := by
    decide +kernel
  refine ⟨hPlain, ?_⟩
  rw [answers_unfiltered undisturbed hPlain rfl
    (fun _ _ => List.not_mem_nil)]
  decide +kernel

end Readers

end Rebac
