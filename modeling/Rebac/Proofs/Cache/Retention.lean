import Mathlib.Data.Finset.Card
import Mathlib.Data.List.Induction
import Mathlib.Data.List.TakeWhile
import Rebac.Proofs.Cache.Recency

/-
  This file proves how long a bounded cache keeps an entry.

  The keys stand in the order of their last use: all keys in
  front of a key were put or hit after it. So a key only makes
  room for a new one when as many other keys were used since
  as the cache has room for, and until then it is found as
  long as it lives.

  Key definitions include:
    * `Recency.Event`
    * `Recency.stored`
    * `Recency.run`
    * `Recency.uses`
    * `Recency.since`
    * `Recency.InOrder`
    * `Recency.Traced`
    * `Recency.Coincides`
    * `Recency.Alive`

  Key theorems include:
    * `Recency.InOrder.mem_take`
    * `Recency.Traced.put`
    * `Recency.Traced.lookup`
    * `Recency.Traced.perform`
    * `Recency.traced_run`
    * `Recency.retention_of_run`
-/

namespace Rebac

namespace Recency

------------------------------------------------------------
-- Histories
------------------------------------------------------------

/- The operations, some of them with the time of the clock. -/
inductive Event (Value : Type) where
  | put (now : Int) (key : Bytes) (value : Value)
  | get (now : Int) (key : Bytes)
  | remove (key : Bytes)
  | removeWhere (test : Bytes → Bool)
  | clear

variable {Value : Type}

/- The time that the clock showed. -/
def Event.time? : Event Value → Option Int
  | .put now _ _ => some now
  | .get now _ => some now
  | _ => none

/-
  What an event makes of the value that was stored under a
  key, and of the time when it was.
-/
def Event.leaves
    (key : Bytes)
    (before : Option (Value × Int)) :
    Event Value → Option (Value × Int)
  | .put now other value =>
      if other = key then some (value, now) else before
  | .get _ _ => before
  | .remove other => if other = key then none else before
  | .removeWhere test => if test key then none else before
  | .clear => none

/-
  The value that the last put of a key stored, and when it
  did, unless the key was removed or cleared since.
-/
def stored
    (key : Bytes)
    (events : List (Event Value)) : Option (Value × Int) :=
  events.foldl (Event.leaves key) none

/- What an event does to a cache. -/
def perform (cache : Recency Value) : Event Value → Recency Value
  | .put now key value => cache.put now key value
  | .get now key => (cache.get now key).2
  | .remove key => (cache.remove key).2
  | .removeWhere test => (cache.removeWhere test).2
  | .clear => cache.clear

def run
    (cache : Recency Value)
    (events : List (Event Value)) : Recency Value :=
  events.foldl perform cache

/- The key that an event puts or hits. -/
def used (cache : Recency Value) : Event Value → List Bytes
  | .put _ key _ => [key]
  | .get now key =>
      if (cache.get now key).1.isSome then [key] else []
  | _ => []

/- The keys that are put or hit in a run, the last one first. -/
def uses (cache : Recency Value) : List (Event Value) → List Bytes
  | [] => []
  | event :: later =>
      (cache.perform event).uses later ++ cache.used event

/- The uses since the last one of a key. -/
def since (key : Bytes) (uses : List Bytes) : List Bytes :=
  uses.takeWhile (· ≠ key)

variable {cache : Recency Value}
variable {events : List (Event Value)}
variable {event : Event Value}
variable {recent : List Bytes}
variable {key other : Bytes}

@[simp] theorem stored_append :
    stored key (events ++ [event]) =
      event.leaves key (stored key events) :=
  List.foldl_concat ..

/- A lookup stores nothing. -/
theorem stored_get
    {now : Int}
    {looked : Bytes} :
    stored key (events ++ [.get now looked]) =
      stored key events :=
  stored_append

@[simp] theorem run_append :
    cache.run (events ++ [event]) =
      (cache.run events).perform event :=
  List.foldl_concat ..

@[simp] theorem uses_append :
    cache.uses (events ++ [event]) =
      (cache.run events).used event ++ cache.uses events := by
  induction events generalizing cache with
  | nil => simp [uses, run]
  | cons first later hLater =>
      rw [List.cons_append, uses, hLater, uses, List.append_assoc]
      rfl

/- A key is not used after its last use. -/
theorem ne_of_mem_since (hOther : other ∈ since key recent) :
    other ≠ key := by
  simpa using List.mem_takeWhile_imp hOther

theorem since_cons_of_ne (hOther : other ≠ key) :
    since key (other :: recent) = other :: since key recent :=
  List.takeWhile_cons_of_pos (by simpa using hOther)

/- A use can only add to the keys used since. -/
theorem mem_since_cons
    {latest : Bytes}
    (hMem : other ∈ since key recent)
    (hLatest : latest ≠ key) :
    other ∈ since key (latest :: recent) := by
  rw [since_cons_of_ne hLatest]
  exact List.mem_cons_of_mem _ hMem

theorem card_since_le (hOther : other ≠ key) :
    (since key recent).toFinset.card ≤
      (since key (other :: recent)).toFinset.card := by
  rw [since_cons_of_ne hOther, List.toFinset_cons]
  exact Finset.card_le_card (Finset.subset_insert _ _)

------------------------------------------------------------
-- Rows
------------------------------------------------------------

/- Each key was used after all those behind it. -/
def InOrder
    (entries : List (Entry Value))
    (uses : List Bytes) : Prop :=
  entries.Pairwise fun first second =>
    first.key ∈ since second.key uses

variable {entry : Entry Value}
variable {entries : List (Entry Value)}

theorem InOrder.nodup_keys (hOrder : InOrder entries recent) :
    (entries.map (·.key)).Nodup :=
  List.pairwise_map.mpr (hOrder.imp ne_of_mem_since)

/- A use takes its key to the front. -/
theorem InOrder.cons
    (hOrder : InOrder entries recent)
    (hOther : ∀ other ∈ entries, other.key ≠ entry.key) :
    InOrder (entry :: entries) (entry.key :: recent) := by
  refine List.pairwise_cons.mpr ⟨?_, hOrder.imp_of_mem ?_⟩
  · intro second hSecond
    rw [since_cons_of_ne (hOther second hSecond).symm]
    exact List.mem_cons_self
  · intro first second _ hSecond hFirst
    exact mem_since_cons hFirst (hOther second hSecond).symm

/- In particular if it had an entry before. -/
theorem InOrder.touch
    (hOrder : InOrder entries recent) :
    InOrder (entry :: without entry.key entries)
      (entry.key :: recent) :=
  InOrder.cons (hOrder.filter _)
    fun _ hOther => (mem_without_iff.mp hOther).2

/-
  An entry has a place among the first ones, unless as many
  other keys were used since.
-/
theorem InOrder.mem_take
    {room : Nat}
    (hOrder : InOrder entries recent)
    (hEntry : entry ∈ entries)
    (hFew : (since entry.key recent).toFinset.card < room) :
    entry ∈ entries.take room := by
  rcases List.append_of_mem hEntry with ⟨ahead, behind, rfl⟩
  rcases List.pairwise_append.mp hOrder with ⟨hAhead, -, hLater⟩
  have hSince :
      (ahead.map (·.key)).toFinset ⊆
        (since entry.key recent).toFinset := by
    intro key hKey
    rcases List.mem_map.mp (List.mem_toFinset.mp hKey) with
      ⟨first, hFirst, rfl⟩
    exact List.mem_toFinset.mpr
      (hLater first hFirst entry List.mem_cons_self)
  have hLength : ahead.length < room := by
    rw [← List.length_map (·.key),
      ← List.toFinset_card_of_nodup (InOrder.nodup_keys hAhead)]
    exact (Finset.card_le_card hSince).trans_lt hFew
  rw [List.take_append, List.take_of_length_le hLength.le]
  obtain ⟨left, hLeft⟩ : ∃ left, room - ahead.length = left + 1 :=
    Nat.exists_eq_add_one_of_ne_zero (Nat.sub_ne_zero_of_lt hLength)
  rw [hLeft, List.take_succ_cons]
  exact List.mem_append_right _ List.mem_cons_self

/- Without a key that has an entry, the row is shorter. -/
theorem length_without_lt
    (hEntry : entry ∈ entries)
    (hKey : entry.key = key) :
    (without key entries).length < entries.length :=
  List.length_filter_lt_length_iff_exists.mpr
    ⟨entry, hEntry, by simpa using hKey⟩

/- Where there was room for all entries, there is for a put. -/
theorem entries_put_of_size
    {now : Int}
    {value : Value}
    (hSize : cache.entries.length ≤ cache.capacity) :
    (cache.put now key value).entries =
      (⟨key, value, Clock.after now cache.lifetime⟩ ::
        without key cache.entries).take cache.capacity := by
  rw [entries_put]
  split
  · next hKnown =>
      rcases List.mem_map.mp hKnown with ⟨entry, hEntry, hKey⟩
      exact (List.take_of_length_le
        ((length_without_lt hEntry hKey).trans_le hSize)).symm
  · next hNew =>
      have hOthers : without key cache.entries = cache.entries := by
        apply List.filter_eq_self.mpr
        intro entry hEntry
        apply decide_eq_true
        rintro rfl
        exact hNew (List.mem_map_of_mem hEntry)
      rw [hOthers]

------------------------------------------------------------
-- Traces
------------------------------------------------------------

/- At some time of the clock an entry has expired. -/
def Lapsed (expires : Int) (events : List (Event Value)) : Prop :=
  ∃ time ∈ events.filterMap Event.time?,
    expires ≤ Clock.nanoseconds time

theorem Lapsed.append
    {expires : Int}
    (hLapsed : Lapsed expires events) :
    Lapsed expires (events ++ [event]) := by
  rcases hLapsed with ⟨time, hTime, hExpired⟩
  refine ⟨time, ?_, hExpired⟩
  rw [List.filterMap_append]
  exact List.mem_append_left _ hTime

theorem lapsed_get
    {expires now : Int}
    (hExpired : expires ≤ Clock.nanoseconds now) :
    Lapsed expires (events ++ [.get now key]) := by
  refine ⟨now, ?_, hExpired⟩
  rw [List.filterMap_append]
  exact List.mem_append_right _ List.mem_cons_self

/-
  What the entries of a cache tell of its history: they are
  what is stored, in the order of their last use. What is
  stored has an entry, unless it has expired or as many other
  keys were used since as there is room for.
-/
structure Traced
    (capacity : Nat)
    (lifetime : Int)
    (entries : List (Entry Value))
    (events : List (Event Value))
    (uses : List Bytes) : Prop where
  held : ∀ entry ∈ entries, ∃ time,
    stored entry.key events = some (entry.value, time) ∧
      entry.expires = Clock.after time lifetime
  order : InOrder entries uses
  size : entries.length ≤ capacity
  kept : ∀ key value time,
    stored key events = some (value, time) →
      (since key uses).toFinset.card < capacity →
        ⟨key, value, Clock.after time lifetime⟩ ∈ entries ∨
          Lapsed (Clock.after time lifetime) events

namespace Traced

variable {capacity : Nat}
variable {lifetime now : Int}
variable {value : Value}

theorem start :
    Traced capacity lifetime ([] : List (Entry Value)) [] [] where
  held := nofun
  order := .nil
  size := Nat.zero_le _
  kept := nofun

/- What is removed is forgotten, and nothing else. -/
theorem filter
    (hTraced : Traced capacity lifetime entries events recent)
    (test : Bytes → Bool)
    (hLeaves : ∀ key before,
      event.leaves key before =
        if test key then before else none) :
    Traced capacity lifetime
      (entries.filter fun entry => test entry.key)
      (events ++ [event]) recent where
  held entry hEntry := by
    rcases List.mem_filter.mp hEntry with ⟨hEntry, hTest⟩
    rw [stored_append, hLeaves, if_pos hTest]
    exact hTraced.held entry hEntry
  order := hTraced.order.filter _
  size := (List.length_filter_le ..).trans hTraced.size
  kept key value time hStored hFew := by
    rw [stored_append, hLeaves] at hStored
    split at hStored
    · next hTest =>
        refine (hTraced.kept key value time hStored hFew).imp ?_ .append
        exact fun hEntry => List.mem_filter.mpr ⟨hEntry, hTest⟩
    · cases hStored

theorem put
    (hTraced : Traced capacity lifetime entries events recent) :
    Traced capacity lifetime
      ((⟨key, value, Clock.after now lifetime⟩ ::
        without key entries).take capacity)
      (events ++ [.put now key value])
      (key :: recent) := by
  have hOrder : InOrder
      (⟨key, value, Clock.after now lifetime⟩ ::
        without key entries)
      (key :: recent) :=
    hTraced.order.touch
  refine ⟨?_, hOrder.sublist (List.take_sublist ..),
    List.length_take_le .., ?_⟩
  · intro entry hEntry
    rw [stored_append]
    rcases List.mem_cons.mp (List.mem_of_mem_take hEntry) with
      rfl | hOther
    · exact ⟨now, if_pos rfl, rfl⟩
    · rcases mem_without_iff.mp hOther with ⟨hOld, hKey⟩
      rw [Event.leaves, if_neg hKey.symm]
      exact hTraced.held entry hOld
  · intro other held time hStored hFew
    rw [stored_append, Event.leaves] at hStored
    by_cases hKey : key = other
    · subst hKey
      rw [if_pos rfl] at hStored
      cases hStored
      exact .inl (hOrder.mem_take List.mem_cons_self hFew)
    · rw [if_neg hKey] at hStored
      refine (hTraced.kept other held time hStored
        ((card_since_le hKey).trans_lt hFew)).imp ?_ .append
      intro hEntry
      have hOther := mem_without_iff.mpr ⟨hEntry, Ne.symm hKey⟩
      exact hOrder.mem_take (List.mem_cons_of_mem _ hOther) hFew

/- A lookup that finds no entry changes nothing. -/
theorem miss
    (hTraced : Traced capacity lifetime entries events recent) :
    Traced capacity lifetime entries
      (events ++ [.get now key]) recent where
  held := by simpa only [stored_get] using hTraced.held
  order := hTraced.order
  size := hTraced.size
  kept other value time hStored hFew := by
    rw [stored_get] at hStored
    exact (hTraced.kept other value time hStored hFew).imp_right
      .append

/- One that drops an entry has seen it expired. -/
theorem expire
    (hTraced : Traced capacity lifetime entries events recent)
    (hEntry : entry ∈ entries)
    (hExpired : entry.expires ≤ Clock.nanoseconds now) :
    Traced capacity lifetime (without entry.key entries)
      (events ++ [.get now entry.key]) recent where
  held other hOther := by
    rw [stored_get]
    exact hTraced.held other (mem_without_iff.mp hOther).1
  order := hTraced.order.filter _
  size := (length_without_lt hEntry rfl).le.trans hTraced.size
  kept other value time hStored hFew := by
    rw [stored_get] at hStored
    rcases hTraced.kept other value time hStored hFew with
      hMem | hLapsed
    · by_cases hKey : other = entry.key
      · rw [Shelf.eq_of_nodup_map hTraced.order.nodup_keys
          hEntry hMem hKey.symm] at hExpired
        exact .inr (lapsed_get hExpired)
      · exact .inl (mem_without_iff.mpr ⟨hMem, hKey⟩)
    · exact .inr hLapsed.append

/- One that hits an entry uses its key. -/
theorem hit
    (hTraced : Traced capacity lifetime entries events recent)
    (hEntry : entry ∈ entries) :
    Traced capacity lifetime
      (entry :: without entry.key entries)
      (events ++ [.get now entry.key])
      (entry.key :: recent) where
  held other hOther := by
    rw [stored_get]
    rcases List.mem_cons.mp hOther with rfl | hOther
    · exact hTraced.held other hEntry
    · exact hTraced.held other (mem_without_iff.mp hOther).1
  order := hTraced.order.touch
  size := (Nat.succ_le_of_lt
    (length_without_lt hEntry rfl)).trans hTraced.size
  kept other value time hStored hFew := by
    rw [stored_get] at hStored
    by_cases hKey : entry.key = other
    · subst hKey
      -- the entry is the one that was put last
      rcases hTraced.held entry hEntry with ⟨_, hHeld, hExpires⟩
      rw [hHeld] at hStored
      cases hStored
      rw [← hExpires]
      exact .inl List.mem_cons_self
    · refine (hTraced.kept other value time hStored
        ((card_since_le hKey).trans_lt hFew)).imp ?_ .append
      intro hMem
      exact List.mem_cons_of_mem _
        (mem_without_iff.mpr ⟨hMem, Ne.symm hKey⟩)

theorem lookup
    {answer : Option Value}
    {left : List (Entry Value)}
    (hTraced : Traced capacity lifetime entries events recent)
    (hLookup : Lookup now key entries answer left) :
    Traced capacity lifetime left
      (events ++ [.get now key])
      ((if answer.isSome then [key] else []) ++ recent) := by
  cases hLookup with
  | absent _ => exact hTraced.miss
  | expired hEntry hKey hExpired =>
      subst hKey
      exact hTraced.expire hEntry hExpired
  | found hEntry hKey _ =>
      subst hKey
      exact hTraced.hit hEntry

end Traced

/- One event keeps the entries in line with the history. -/
theorem Traced.perform
    (hTraced : Traced cache.capacity cache.lifetime
      cache.entries events recent)
    (event : Event Value) :
    Traced cache.capacity cache.lifetime
      (cache.perform event).entries (events ++ [event])
      (cache.used event ++ recent) := by
  cases event with
  | put now key value =>
      rw [Recency.perform, entries_put_of_size hTraced.size]
      exact hTraced.put
  | get now key => exact hTraced.lookup (cache.lookup_get now key)
  | remove key =>
      rw [Recency.perform, entries_remove]
      refine hTraced.filter (· ≠ key) fun other before => ?_
      by_cases hSame : key = other
      · simp [Event.leaves, hSame]
      · simp [Event.leaves, hSame, Ne.symm hSame]
  | removeWhere test =>
      rw [Recency.perform, entries_removeWhere]
      refine hTraced.filter (!test ·) fun other before => ?_
      cases hTest : test other <;> simp [Event.leaves, hTest]
  | clear =>
      have hNone : Traced cache.capacity cache.lifetime
          (cache.entries.filter fun _ => false)
          (events ++ [.clear]) recent :=
        hTraced.filter (fun _ => false) fun _ _ => rfl
      rwa [List.filter_false] at hNone

/- No event changes how much there is room for, or how long. -/
theorem run_settings
    (cache : Recency Value)
    (events : List (Event Value)) :
    (cache.run events).capacity = cache.capacity ∧
      (cache.run events).lifetime = cache.lifetime := by
  induction events using List.reverseRecOn with
  | nil => exact ⟨rfl, rfl⟩
  | append_singleton events event hEvents =>
      rw [run_append, ← hEvents.1, ← hEvents.2]
      cases event <;> exact ⟨rfl, rfl⟩

/- And so a whole run does. -/
theorem traced_run
    (cache : Recency Value)
    (hNew : cache.entries = [])
    (events : List (Event Value)) :
    Traced cache.capacity cache.lifetime
      (cache.run events).entries events (cache.uses events) := by
  induction events using List.reverseRecOn with
  | nil =>
      rw [run, List.foldl_nil, hNew]
      exact .start
  | append_singleton events event hEvents =>
      rcases run_settings cache events with
        ⟨hCapacity, hLifetime⟩
      rw [run_append, uses_append]
      rw [← hCapacity, ← hLifetime] at hEvents ⊢
      exact hEvents.perform event

------------------------------------------------------------
-- Retention
------------------------------------------------------------

/-
  The row and the index of a cache agree: no key has two
  entries, the index has just the keys of the entries, and it
  leads from each one to its entry.
-/
structure Coincides (cache : Recency Value) : Prop where
  keys : cache.keys.Nodup
  index : (cache.shelf.index.map Prod.fst).Perm cache.keys
  leads : ∀ key entry,
    (cache.shelf.locate? key).map Node.entry = some entry ↔
      entry ∈ cache.entries ∧ entry.key = key

theorem coincides (cache : Recency Value) : cache.Coincides where
  keys := cache.nodup_keys
  index := cache.keys_eq ▸ cache.linked.keys_perm
  leads key entry := by
    simp only [Option.map_eq_some_iff, cache.linked.locate?_iff,
      entries, Shelf.entries, List.mem_map]
    constructor
    · rintro ⟨node, ⟨hNode, hKey⟩, rfl⟩
      exact ⟨⟨node, hNode, rfl⟩, hKey⟩
    · rintro ⟨⟨node, hNode, rfl⟩, hKey⟩
      exact ⟨node, ⟨hNode, hKey⟩, rfl⟩

/-
  Whether what was stored at a time is still alive at another
  one: the time at which it expires is yet to come.
-/
def Alive (lifetime time now : Int) : Prop :=
  Clock.nanoseconds now < Clock.after time lifetime

instance (lifetime time now : Int) :
    Decidable (Alive lifetime time now) := by
  unfold Alive
  infer_instance

/-
  After any operations a cache holds no key twice, agrees with
  its index and has room for its entries. It returns the value
  that the last put of a key stored, if that is alive and the
  key was not removed since; and it does so as long as fewer
  other keys were put or hit since the last use of the key
  than there is room for. No operation may have come later
  than the lookup for this.

  A value expires when its lifetime is over just if that time
  fits into the numbers of the clock, and then it is alive for
  its lifetime.
-/
theorem retention_of_run
    (capacity : Nat)
    (lifetime : Int)
    (events : List (Event Value)) :
    let start : Recency Value := .empty capacity lifetime
    let cache := start.run events
    cache.Coincides ∧
    cache.size ≤ max 1 capacity ∧
    (∀ now key value,
      ((cache.get now key).1 = some value →
        ∃ time, stored key events = some (value, time) ∧
          Alive lifetime time now) ∧
      ∀ time, stored key events = some (value, time) →
        Alive lifetime time now →
        (∀ earlier ∈ events.filterMap Event.time?,
          earlier ≤ now) →
        (since key (start.uses events)).toFinset.card <
          max 1 capacity →
        (cache.get now key).1 = some value) ∧
    ∀ time,
      (Clock.after time lifetime =
          Clock.nanoseconds time + Clock.nanoseconds lifetime ↔
        Clock.Fits time lifetime) ∧
      (Clock.Fits time lifetime → ∀ now,
        Alive lifetime time now ↔ now - time < lifetime) := by
  intro start cache
  have hTraced : Traced (max capacity 1) lifetime
      cache.entries events (start.uses events) :=
    traced_run start rfl events
  rw [max_comm]
  refine ⟨cache.coincides, hTraced.size, fun now key value => ?_,
    fun time => ⟨Clock.after_eq_iff, fun hFits now =>
      Clock.lt_after_iff hFits⟩⟩
  constructor
  · intro hGet
    rcases exists_living_of_get hGet with
      ⟨entry, hEntry, rfl, rfl, hLives⟩
    rcases hTraced.held entry hEntry with
      ⟨time, hStored, hExpires⟩
    rw [hExpires] at hLives
    exact ⟨time, hStored, hLives⟩
  · intro time hStored hAlive hClock hFew
    rcases hTraced.kept key value time hStored hFew with
      hEntry | ⟨earlier, hEarlier, hLapsed⟩
    · exact get_of_mem hEntry hAlive
    · -- the clock would have shown a later time before
      have hLater :=
        Clock.nanoseconds_le_iff.mpr (hClock earlier hEarlier)
      exact absurd hAlive
        (Int.not_lt.mpr (Int.le_trans hLapsed hLater))

------------------------------------------------------------
-- Examples
------------------------------------------------------------

/-
  Of three keys in a cache for two, the one that was hit stays
  when the third is put: only one other key was used since. A
  lookup that finds nothing is no use.
-/
namespace Pair

def visits : List (Event Bool) :=
  [ .put 0 [97] true,
    .put 10 [98] false,
    .get 20 [97],
    .removeWhere (· = [100]),
    .put 30 [99] false,
    .get 40 [98] ]

theorem hit_found :
    stored [97] visits = some (true, 0) ∧
      since [97] ((Recency.empty 2 100).uses visits) = [[99]] ∧
      Clock.Fits 0 100 ∧
      (((Recency.empty 2 100).run visits).get 50 [97]).1 =
        some true := by
  have hStored : stored [97] visits = some (true, 0) := by
    decide +kernel
  have hFits : Clock.Fits 0 100 := by decide
  refine ⟨hStored, by decide +kernel, hFits, ?_⟩
  rcases retention_of_run 2 100 visits with
    ⟨_, _, hFound, hExpires⟩
  have hAlive : Alive 100 0 50 :=
    ((hExpires 0).2 hFits 50).mpr (by decide)
  exact (hFound 50 [97] true).2 0 hStored hAlive
    (by decide +kernel) (by decide +kernel)

end Pair

/-
  The time at which a value with the longest lifetime expires
  does not fit, and comes before the value is stored. So the
  value is never found, although it was stored just now.
-/
namespace Endless

def lifetime : Int :=
  Numeral.largestInt64

def visits : List (Event Bool) :=
  [.put 1700000000000 [97] true]

theorem endless_lost :
    stored [97] visits = some (true, 1700000000000) ∧
      (1700000000000 : Int) - 1700000000000 < lifetime ∧
      since [97] ((Recency.empty 1 lifetime).uses visits) = [] ∧
      ¬ Clock.Fits 1700000000000 lifetime ∧
      (((Recency.empty 1 lifetime).run visits).get
          1700000000000 [97]).1 = none := by
  decide +kernel

end Endless

end Recency

end Rebac
