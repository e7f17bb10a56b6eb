import Mathlib.Data.List.Induction
import Rebac.Proofs.Cache.Faithful
import Rebac.Proofs.Cache.Run

/-
  This file proves when a cache of decisions only returns the
  decision that was set last.

  A denied decision is kept near, and never takes an allowed
  one out of the shared cache. So a key that was allowed and
  then denied, without being forgotten in between, is found
  to be allowed once the near decision is gone. This is the
  only case in which anything else than the last decision is
  returned.

  Key definitions include:
    * `PermissionCache.Since`
    * `PermissionCache.Latest`
    * `PermissionCache.Granted`
    * `PermissionCache.Overturned`
    * `PermissionCache.Fresh`
    * `PermissionCache.Recalls`
    * `PermissionCache.Keeps`

  Key theorems include:
    * `PermissionCache.Recalls.perform`
    * `PermissionCache.Keeps.perform`
    * `PermissionCache.recall_of_run`
-/

namespace Rebac

namespace PermissionCache

------------------------------------------------------------
-- Histories
------------------------------------------------------------

/-
  Some event has happened, and since then only events of a
  kind.
-/
def Since
    (Starts Continues : Event → Prop)
    (events : List Event) : Prop :=
  ∃ earlier event later,
    events = earlier ++ event :: later ∧ Starts event ∧
      ∀ other ∈ later, Continues other

/- The decision that was set last, if it was not forgotten. -/
def Latest
    (key : TupleKey)
    (allowed : Bool) : List Event → Prop :=
  Since (Event.Sets key allowed) fun event =>
    ¬ event.Drops key ∧ ∀ other, ¬ event.Sets key other

/- A key that was allowed, and not forgotten since. -/
def Granted (key : TupleKey) : List Event → Prop :=
  Since (Event.Sets key true) fun event => ¬ event.Drops key

/- A key that was allowed, and then denied without forgetting. -/
def Overturned (key : TupleKey) (events : List Event) : Prop :=
  Granted key events ∧ Latest key false events

variable {Starts Continues : Event → Prop}
variable {key : TupleKey}
variable {allowed : Bool}
variable {event : Event}
variable {events : List Event}

@[simp] theorem not_since_nil : ¬ Since Starts Continues [] := by
  rintro ⟨earlier, event, later, hSplit, _⟩
  exact absurd hSplit.symm (by simp)

/- The last event starts anew, or continues. -/
theorem since_append_iff :
    Since Starts Continues (events ++ [event]) ↔
      Starts event ∨
        Continues event ∧ Since Starts Continues events := by
  constructor
  · rintro ⟨earlier, first, later, hSplit, hStarts, hLater⟩
    rcases List.eq_nil_or_concat later with rfl | ⟨others, last, rfl⟩
    · rw [List.append_singleton_inj] at hSplit
      exact .inl (hSplit.2 ▸ hStarts)
    · rw [List.concat_eq_append, ← List.cons_append,
        ← List.append_assoc, List.append_singleton_inj] at hSplit
      rcases hSplit with ⟨rfl, rfl⟩
      rw [List.concat_eq_append] at hLater
      refine .inr ⟨hLater _ List.mem_append_cons_self, ?_⟩
      exact ⟨earlier, first, others, rfl, hStarts,
        fun other hOther =>
          hLater other (List.mem_append_left _ hOther)⟩
  · rintro (hStarts | ⟨hContinues, earlier, first, later, rfl,
      hStarts, hLater⟩)
    · exact ⟨events, event, [], rfl, hStarts, nofun⟩
    · refine ⟨earlier, first, later ++ [event], by simp, hStarts, ?_⟩
      simp only [List.mem_append, List.mem_singleton]
      rintro other (hOther | rfl)
      · exact hLater other hOther
      · exact hContinues

/- Only one decision is the last one. -/
theorem not_latest_of_latest
    {other : Bool}
    (hLatest : Latest key allowed events)
    (hOther : other ≠ allowed) :
    ¬ Latest key other events := by
  induction events using List.reverseRecOn with
  | nil => exact not_since_nil
  | append_singleton events event hEvents =>
      rw [Latest, since_append_iff]
      rcases since_append_iff.mp hLatest with
        hSets | ⟨hContinues, hEarlier⟩
      · rintro (hSame | ⟨hNone, _⟩)
        · have hEvent := hSame.symm.trans hSets
          cases hEvent
          exact hOther rfl
        · exact hNone.2 allowed hSets
      · rintro (hSets | ⟨_, hSame⟩)
        · exact hContinues.2 other hSets
        · exact hEvents hEarlier hSame

/- A key that was allowed, and not forgotten, has a decision. -/
theorem Granted.latest
    (hGranted : Granted key events) :
    Latest key true events ∨ Overturned key events := by
  suffices hLatest :
      Latest key true events ∨ Latest key false events from
    hLatest.imp_right fun hDenied => ⟨hGranted, hDenied⟩
  induction events using List.reverseRecOn with
  | nil => exact absurd hGranted not_since_nil
  | append_singleton events event hEvents =>
      simp only [Latest, since_append_iff]
      rcases since_append_iff.mp hGranted with
        hSets | ⟨hKept, hEarlier⟩
      · exact .inl (.inl hSets)
      · by_cases hTrue : event.Sets key true
        · exact .inl (.inl hTrue)
        · by_cases hFalse : event.Sets key false
          · exact .inr (.inl hFalse)
          · have hNone : ∀ other, ¬ event.Sets key other :=
              Bool.forall_bool.mpr ⟨hFalse, hTrue⟩
            exact (hEvents hEarlier).imp
              (fun hLatest => .inr ⟨⟨hKept, hNone⟩, hLatest⟩)
              (fun hLatest => .inr ⟨⟨hKept, hNone⟩, hLatest⟩)

------------------------------------------------------------
-- Parts of the Cache
------------------------------------------------------------

variable {Shared : Type} [SharedCache Shared]
variable {Works : Shared → Prop}
variable {laws : SharedCache.Laws Shared}
variable {cache : PermissionCache Shared}
variable {scope : Scope}
variable {now : Int}
variable {text value : Bytes}

/-
  A cache that keeps nothing, near or shared, and whose
  filter has slots.
-/
structure Fresh
    (laws : SharedCache.Laws Shared)
    (cache : PermissionCache Shared) : Prop where
  near : cache.near.entries = []
  slots : 0 < cache.filter.slots.size
  shared : ∀ text value, ¬ cache.Held laws text value

/- A cache starts fresh, if nothing of it is shared yet. -/
theorem fresh_empty
    {settings : Settings}
    {shared : Option Shared}
    (hShared : ∀ keyspace ∈ shared, ∀ text value,
      ¬ laws.Holds keyspace (settings.keyStart ++ text) value) :
    (empty settings shared).Fresh laws where
  near := rfl
  slots := Bloom.size_empty_pos _ _
  shared := by
    rintro text value ⟨keyspace, hMember, hHolds⟩
    exact hShared keyspace hMember text value hHolds

/- The call of a removal succeeds where no call ever fails. -/
theorem Scope.call_works
    {shared : Shared}
    (hReliable : SharedCache.Reliable Works)
    (hWorks : Works shared)
    (keyStart : Bytes)
    (scope : Scope) :
    (scope.call keyStart shared).1.isSome ∧
      Works (scope.call keyStart shared).2 := by
  cases scope with
  | decision key => exact hReliable.delete _ hWorks
  | user id => exact hReliable.deleteMatching _ hWorks
  | object id => exact hReliable.deleteMatching _ hWorks
  | all tallies => exact hReliable.deleteMatching _ hWorks

theorem Usable.called
    (hReliable : SharedCache.Reliable Works)
    (hUsable : cache.Usable Works)
    (scope : Scope) :
    cache.Called scope := by
  intro shared hShared
  exact (Scope.call_works hReliable (hUsable.works shared hShared)
    cache.settings.keyStart scope).1

theorem Usable.drop
    (hReliable : SharedCache.Reliable Works)
    (hUsable : cache.Usable Works)
    (scope : Scope) :
    (cache.drop scope).Usable Works := by
  refine ⟨drop_settings scope cache ▸ hUsable.plain, ?_⟩
  intro shared hShared
  rw [drop_shared] at hShared
  rcases Option.map_eq_some_iff.mp hShared with
    ⟨before, hBefore, rfl⟩
  exact (Scope.call_works hReliable (hUsable.works before hBefore)
    cache.settings.keyStart scope).2

theorem Usable.perform
    (hReliable : SharedCache.Reliable Works)
    (hUsable : cache.Usable Works)
    (event : Event) :
    (cache.perform event).Usable Works := by
  rcases event with ⟨now, key | ⟨key, allowed⟩ | scope⟩
  · exact hUsable.lookup hReliable (lookup_get now key cache)
  · exact hUsable.set hReliable allowed
  · exact hUsable.drop hReliable scope

/- An allowed decision is shared, if the call succeeds. -/
theorem exists_held_of_set
    (hReliable : SharedCache.Reliable Works)
    (hLasting : laws.Lasting)
    (hUsable : cache.Usable Works)
    (hShared : cache.shared.isSome) :
    ∃ value,
      (cache.set now key true).Held laws (keyText key) value := by
  rcases Option.isSome_iff_exists.mp hShared with
    ⟨shared, hMember⟩
  have hPut :=
    (hReliable.put (cache.settings.keyStart ++ keyText key)
      cache.settings.sharedLifetime allowedText
      (hUsable.works shared hMember)).1
  refine ⟨allowedText, ?_⟩
  rw [Held, set_shared, set_settings, if_pos rfl, hMember]
  exact ⟨_, rfl, hLasting.put hPut⟩

/- What is shared stays so until the key is forgotten. -/
theorem exists_held_of_perform
    (hReliable : SharedCache.Reliable Works)
    (hLasting : laws.Lasting)
    (hUsable : cache.Usable Works)
    (hEvent : event.operation.NoBar)
    (hKey : key.NoBar)
    (hKept : ¬ event.Drops key)
    (hHeld : cache.Held laws (keyText key) value) :
    ∃ value,
      (cache.perform event).Held laws (keyText key) value := by
  by_cases hAgain :
      ∃ other, event.operation = .set other true ∧
        keyText key = keyText other
  · -- the put may replace the value, so another one is held
    rcases hAgain with ⟨other, hSet, hText⟩
    rcases hHeld with ⟨shared, hMember, _⟩
    rw [perform, hSet, hText]
    exact exists_held_of_set hReliable hLasting hUsable
      (Option.isSome_of_mem hMember)
  · refine ⟨value, hHeld.perform hLasting hUsable.plain ?_ ?_⟩
    · intro other hSet hText
      exact hAgain ⟨other, hSet, hText⟩
    · intro scope hDrop hRemoves
      exact hKept
        ((drops_iff hEvent hKey).mpr ⟨scope, hDrop, hRemoves⟩)

------------------------------------------------------------
-- What a Cache Keeps
------------------------------------------------------------

/-
  What is kept after some events: near are the last decisions,
  or those that were found shared; and shared are only keys
  that were allowed, and not forgotten since.
-/
structure Recalls
    (Works : Shared → Prop)
    (laws : SharedCache.Laws Shared)
    (events : List Event)
    (cache : PermissionCache Shared) : Prop where
  usable : cache.Usable Works
  near : ∀ entry ∈ cache.near.entries, ∀ key : TupleKey,
    key.NoBar → entry.key = keyText key →
      Latest key entry.value events ∨
        entry.value = true ∧ Granted key events
  shared : ∀ key : TupleKey, key.NoBar →
    ∀ value, cache.Held laws (keyText key) value →
      value = allowedText ∧ Granted key events

theorem Fresh.recalls
    (hUsable : cache.Usable Works)
    (hFresh : cache.Fresh laws) :
    cache.Recalls Works laws [] where
  usable := hUsable
  near entry hEntry := by
    rw [hFresh.near] at hEntry
    cases hEntry
  shared key _ value hHeld :=
    absurd hHeld (hFresh.shared (keyText key) value)

namespace Recalls

/-
  A near decision that is new was just set, or is one that
  was allowed and has been found shared.
-/
theorem near_perform
    {entry : Recency.Entry Bool}
    (hRecalls : cache.Recalls Works laws events)
    (hEvent : event.operation.NoBar)
    (hEntry : entry ∈ (cache.perform event).near.entries)
    (hKey : key.NoBar)
    (hText : entry.key = keyText key) :
    Latest key entry.value (events ++ [event]) ∨
      entry.value = true ∧ Granted key (events ++ [event]) := by
  rw [Latest, Granted, since_append_iff, since_append_iff]
  rcases near_cases laws hEntry with
    ⟨hOld, hSpares⟩ | ⟨other, hSet, hOther⟩ |
      ⟨other, hGet, hOther, _, value, hHeld, hValue⟩
  · rw [hText] at hSpares
    have hContinues := continues_of_spares hEvent hKey hSpares
    rcases hRecalls.near entry hOld key hKey hText with
      hLatest | ⟨hAllowed, hGranted⟩
    · exact .inl (.inr ⟨hContinues, hLatest⟩)
    · exact .inr ⟨hAllowed, .inr ⟨hContinues.1, hGranted⟩⟩
  · rw [hText] at hOther
    exact .inl (.inl (sets_of_keyText_eq hKey hSet hOther))
  · -- what is shared was allowed, whatever was set near since
    rw [← hOther, hText] at hHeld
    rcases hRecalls.shared key hKey value hHeld with
      ⟨rfl, hGranted⟩
    exact .inr ⟨hValue.trans (decide_eq_true rfl),
      .inr ⟨not_drops_of_get hGet, hGranted⟩⟩

/- No call fails, so what is forgotten is no longer shared. -/
theorem shared_perform
    (hReliable : SharedCache.Reliable Works)
    (hRecalls : cache.Recalls Works laws events)
    (hEvent : event.operation.NoBar)
    (hKey : key.NoBar)
    (hHeld : (cache.perform event).Held laws (keyText key) value) :
    value = allowedText ∧ Granted key (events ++ [event]) := by
  rw [Granted, since_append_iff]
  rcases held_cases hRecalls.usable.plain hHeld with
    ⟨hOld, hRemoved⟩ | ⟨other, hSet, hText, hValue⟩
  · rcases hRecalls.shared key hKey value hOld with
      ⟨hValue, hGranted⟩
    refine ⟨hValue, .inr ⟨?_, hGranted⟩⟩
    rw [drops_iff hEvent hKey]
    rintro ⟨scope, hDrop, hRemoves⟩
    exact hRemoved scope hDrop
      (hRecalls.usable.called hReliable scope) hRemoves
  · exact ⟨hValue, .inl (sets_of_keyText_eq hKey hSet hText)⟩

/- Every event leaves what the history then says. -/
theorem perform
    (hReliable : SharedCache.Reliable Works)
    (hRecalls : cache.Recalls Works laws events)
    (hEvent : event.operation.NoBar) :
    (cache.perform event).Recalls Works laws
      (events ++ [event]) where
  usable := hRecalls.usable.perform hReliable event
  near _ hEntry _ hKey hText :=
    hRecalls.near_perform hEvent hEntry hKey hText
  shared _ hKey _ hHeld :=
    hRecalls.shared_perform hReliable hEvent hKey hHeld

/- What is found is the last decision, or one overturned. -/
theorem latest_of_lookup
    {source : Source}
    {after : PermissionCache Shared}
    (hRecalls : cache.Recalls Works laws events)
    (hKey : key.NoBar)
    (hLookup :
      Lookup now key cache (some (allowed, source)) after) :
    Latest key allowed events ∨
      allowed = true ∧ Overturned key events := by
  have hFound :
      Latest key allowed events ∨
        allowed = true ∧ Granted key events := by
    rcases exists_of_lookup laws hLookup with
      ⟨entry, hEntry, hText, rfl⟩ | ⟨_, value, hHeld, rfl⟩
    · exact hRecalls.near entry hEntry key hKey hText
    · rcases hRecalls.shared key hKey value hHeld with
        ⟨rfl, hGranted⟩
      exact .inr ⟨decide_eq_true rfl, hGranted⟩
  rcases hFound with hLatest | ⟨rfl, hGranted⟩
  · exact .inl hLatest
  · exact hGranted.latest.imp_right fun hLost => ⟨rfl, hLost⟩

end Recalls

/-
  What a shared cache that loses nothing still holds: the
  keys that were allowed, and not forgotten since.
-/
structure Keeps
    (laws : SharedCache.Laws Shared)
    (events : List Event)
    (cache : PermissionCache Shared) : Prop where
  slots : 0 < cache.filter.slots.size
  shared : cache.shared.isSome
  granted : ∀ key : TupleKey, key.NoBar → Granted key events →
    cache.filter.mightContain (keyText key) = true ∧
      ∃ value, cache.Held laws (keyText key) value

theorem Fresh.keeps
    (hFresh : cache.Fresh laws)
    (hShared : cache.shared.isSome) :
    cache.Keeps laws [] where
  slots := hFresh.slots
  shared := hShared
  granted _ _ hGranted := absurd hGranted not_since_nil

/- Every event leaves these keys shared. -/
theorem Keeps.perform
    (hReliable : SharedCache.Reliable Works)
    (hLasting : laws.Lasting)
    (hUsable : cache.Usable Works)
    (hKeeps : cache.Keeps laws events)
    (hEvent : event.operation.NoBar) :
    (cache.perform event).Keeps laws (events ++ [event]) where
  slots := by
    rw [size_perform]
    exact hKeeps.slots
  shared := isSome_perform hKeeps.shared event
  granted key hKey hGranted := by
    rcases since_append_iff.mp hGranted with
      hSets | ⟨hKept, hEarlier⟩
    · rw [PermissionCache.perform, hSets]
      refine ⟨?_, exists_held_of_set hReliable hLasting hUsable
        hKeeps.shared⟩
      rw [set_filter, if_pos rfl]
      exact Bloom.mightContain_add hKeeps.slots _
    · rcases hKeeps.granted key hKey hEarlier with
        ⟨hFilter, value, hHeld⟩
      exact ⟨(grown_perform hKept).mightContain hFilter,
        exists_held_of_perform hReliable hLasting hUsable hEvent
          hKey hKept hHeld⟩

------------------------------------------------------------
-- Runs
------------------------------------------------------------

/- So the cache recalls the history of a run. -/
theorem recalls_of_run
    (hReliable : SharedCache.Reliable Works)
    (hUsable : cache.Usable Works)
    (hFresh : cache.Fresh laws)
    (hEvents : ∀ event ∈ events, event.operation.NoBar) :
    (cache.run events).Recalls Works laws events := by
  induction events using List.reverseRecOn with
  | nil => exact hFresh.recalls hUsable
  | append_singleton earlier event hEarlier =>
      rw [run_append]
      refine (hEarlier fun other hOther => ?_).perform hReliable ?_
      · exact hEvents other (List.mem_append_left _ hOther)
      · exact hEvents event List.mem_concat_self

theorem keeps_of_run
    (hReliable : SharedCache.Reliable Works)
    (hLasting : laws.Lasting)
    (hUsable : cache.Usable Works)
    (hFresh : cache.Fresh laws)
    (hShared : cache.shared.isSome)
    (hEvents : ∀ event ∈ events, event.operation.NoBar) :
    (cache.run events).Keeps laws events := by
  induction events using List.reverseRecOn with
  | nil => exact hFresh.keeps hShared
  | append_singleton earlier event hEarlier =>
      have hBefore : ∀ other ∈ earlier, other.operation.NoBar :=
        fun other hOther =>
          hEvents other (List.mem_append_left _ hOther)
      rw [run_append]
      refine (hEarlier hBefore).perform hReliable hLasting ?_ ?_
      · exact (recalls_of_run hReliable hUsable hFresh
          hBefore).usable
      · exact hEvents event List.mem_concat_self

/-
  An overturned decision is found, once all near decisions
  have expired.
-/
theorem found_of_granted
    (hReliable : SharedCache.Reliable Works)
    (hLasting : laws.Lasting)
    (hKey : key.NoBar)
    (hRecalls : cache.Recalls Works laws events)
    (hKeeps : cache.Keeps laws events)
    (hGranted : Granted key events) :
    ∃ start, ∀ now, start ≤ now →
      (cache.get now key).1 = some (true, .shared) := by
  rcases Recency.exists_expired cache.near with ⟨start, hExpired⟩
  rcases hKeeps.granted key hKey hGranted with
    ⟨hFilter, value, hHeld⟩
  refine ⟨start, fun now hNow => ?_⟩
  have hNear : (cache.near.get now (keyText key)).1 = none :=
    Recency.get_of_expired fun entry hEntry _ =>
      Int.le_trans (hExpired entry hEntry)
        (Clock.nanoseconds_le_iff.mpr hNow)
  have hAsked : cache.Asked key := by
    intro shared hShared
    exact (hReliable.get _
      (hRecalls.usable.works shared hShared)).1
  rcases get_of_held hLasting hNear hFilter hHeld hAsked with
    ⟨found, hFound, hGet⟩
  rw [hGet, (hRecalls.shared key hKey found hFound).1,
    decide_eq_true rfl]

/-
  A cache that starts fresh only returns the decision that
  was set last, if it was not forgotten, or an allowed one
  that was overturned. If the shared cache loses nothing,
  every overturned decision is returned from some time on.
-/
theorem recall_of_run
    (hReliable : SharedCache.Reliable Works)
    (hUsable : cache.Usable Works)
    (hFresh : cache.Fresh laws)
    (hEvents : ∀ event ∈ events, event.operation.NoBar)
    (hKey : key.NoBar) :
    (∀ now allowed source,
      ((cache.run events).get now key).1 =
          some (allowed, source) →
        Latest key allowed events ∨
          allowed = true ∧ Overturned key events) ∧
    (Overturned key events → laws.Lasting →
      cache.shared.isSome →
        ¬ Latest key true events ∧
          ∃ start, ∀ now, start ≤ now →
            ((cache.run events).get now key).1 =
              some (true, .shared)) := by
  have hRecalls : (cache.run events).Recalls Works laws events :=
    recalls_of_run hReliable hUsable hFresh hEvents
  constructor
  · intro now allowed source hGet
    have hLookup := lookup_get now key (cache.run events)
    rw [hGet] at hLookup
    exact hRecalls.latest_of_lookup hKey hLookup
  · intro hOverturned hLasting hShared
    have hKeeps : (cache.run events).Keeps laws events :=
      keeps_of_run hReliable hLasting hUsable hFresh hShared
        hEvents
    refine ⟨not_latest_of_latest hOverturned.2 Bool.noConfusion,
      ?_⟩
    exact found_of_granted hReliable hLasting hKey hRecalls
      hKeeps hOverturned.1

end PermissionCache

------------------------------------------------------------
-- An Example
------------------------------------------------------------

/- A reader of a plan, who is allowed to and then is not. -/
namespace Readers

open PermissionCache

/- A cache in front of a keyspace, for a second's decisions. -/
def cache : PermissionCache Keyspace :=
  { settings :=
      { nearItems := 10
        nearLifetime := 1000
        sharedLifetime := 60
        filterItems := 10
        filterRate := 0.01
        keyStart := utf8 "authz:perm:" }
    near := Recency.empty 10 1000
    filter := Bloom.blank 64 2
    shared := some { dialect := .full } }

def key : TupleKey :=
  { user := utf8 "user:alice"
    relation := utf8 "reader"
    object := utf8 "doc:plan" }

def events : List Event :=
  [⟨0, .set key true⟩, ⟨1, .set key false⟩]

theorem key_noBar : key.NoBar where
  user := by decide
  relation := by decide
  object := by decide

theorem events_noBar : ∀ event ∈ events, event.operation.NoBar := by
  intro event hEvent
  rcases List.mem_pair.mp hEvent with rfl | rfl
  · exact key_noBar
  · exact key_noBar

theorem usable :
    cache.Usable fun keyspace => keyspace.available = true where
  plain := by decide +kernel
  works := by
    rintro _ ⟨⟩
    rfl

theorem fresh : cache.Fresh Keyspace.laws where
  near := rfl
  slots := by decide +kernel
  shared := by
    rintro text value ⟨_, ⟨⟩, hHolds⟩
    exact absurd hHolds List.not_mem_nil

theorem latest_false : Latest key false events :=
  ⟨[⟨0, .set key true⟩], _, [], rfl, rfl, nofun⟩

theorem granted : Granted key events := by
  refine ⟨[], _, [⟨1, .set key false⟩], rfl, rfl, ?_⟩
  intro event hEvent
  cases List.mem_singleton.mp hEvent
  rintro ⟨scope, ⟨⟩, _⟩

/-
  At first she is found to be denied, as she was told last.
  But from some time on, she is found to be allowed.
-/
theorem denied_then_allowed :
    ((cache.run events).get 500 key).1 = some (false, .near) ∧
      Latest key false events ∧
      ∃ start, ∀ now, start ≤ now →
        ((cache.run events).get now key).1 =
          some (true, .shared) := by
  have hNear :
      ((cache.run events).get 500 key).1 = some (false, .near) := by
    decide +kernel
  have hRecall :=
    recall_of_run Keyspace.reliable usable fresh events_noBar
      key_noBar
  refine ⟨hNear, ?_, ?_⟩
  · rcases hRecall.1 500 false .near hNear with
      hLatest | ⟨hAllowed, _⟩
    · exact hLatest
    · cases hAllowed
  · exact (hRecall.2 ⟨granted, latest_false⟩ Keyspace.lasting
      rfl).2

/-
  The last decision is that she is denied, but what is found
  is that she is allowed.
-/
theorem denied_found_allowed :
    cache.Usable (fun keyspace => keyspace.available = true) ∧
      cache.Fresh Keyspace.laws ∧
      (∀ event ∈ events, event.operation.NoBar) ∧
      key.NoBar ∧
      Latest key false events ∧
      ((cache.run events).get 2000 key).1 =
        some (true, .shared) ∧
      ¬ Latest key true events := by
  refine ⟨usable, fresh, events_noBar, key_noBar, latest_false,
    by decide +kernel, ?_⟩
  exact not_latest_of_latest latest_false Bool.noConfusion

end Readers

end Rebac
