import Rebac.Cache.Keyspace

/-
  This file defines what is relied on of a shared cache, and
  proves it of the one that is held in memory.

  A shared cache may lose what it holds at any time. But it
  holds nothing that was not put, and a deletion that
  succeeds has removed the keys.

  Key definitions include:
    * `SharedCache.Laws`
    * `SharedCache.Reliable`
    * `SharedCache.Laws.Lasting`
    * `Keyspace.laws`

  Key theorems include:
    * `Keyspace.reliable`
    * `Keyspace.lasting`
-/

namespace Rebac

namespace SharedCache

variable (Shared : Type) [SharedCache Shared]

/-
  What a shared cache holds, and how its calls change that. A
  call that fails may have taken effect or not.
-/
structure Laws where
  Holds : Shared → (key value : Bytes) → Prop
  dialect : Shared → Glob.Dialect
  holds_of_get : ∀ {key value shared},
    (get key shared).1 = some (some value) →
      Holds shared key value
  holds_get : ∀ {key shared other found},
    Holds (get key shared).2 other found →
      Holds shared other found
  holds_put : ∀ {key seconds value shared other found},
    Holds (put key seconds value shared).2 other found →
      (other = key ∧ found = value) ∨ Holds shared other found
  holds_delete : ∀ {keys shared other found},
    Holds (delete keys shared).2 other found →
      Holds shared other found
  not_mem_of_delete : ∀ {keys count shared other found},
    (delete keys shared).1 = some count →
      Holds (delete keys shared).2 other found →
        other ∉ keys
  holds_deleteMatching : ∀ {pattern shared other found},
    Holds (deleteMatching pattern shared).2 other found →
      Holds shared other found
  not_matches_of_deleteMatching :
    ∀ {pattern count shared other found},
      (deleteMatching pattern shared).1 = some count →
        Holds (deleteMatching pattern shared).2 other found →
          ¬ Glob.Matches (dialect shared) pattern other

variable {Shared}

/- States of a shared cache in which no call ever fails. -/
structure Reliable (Works : Shared → Prop) : Prop where
  get : ∀ key {shared}, Works shared →
    (SharedCache.get key shared).1.isSome ∧
      Works (SharedCache.get key shared).2
  put : ∀ key seconds value {shared}, Works shared →
    (SharedCache.put key seconds value shared).1.isSome ∧
      Works (SharedCache.put key seconds value shared).2
  delete : ∀ keys {shared}, Works shared →
    (SharedCache.delete keys shared).1.isSome ∧
      Works (SharedCache.delete keys shared).2
  deleteMatching : ∀ pattern {shared}, Works shared →
    (SharedCache.deleteMatching pattern shared).1.isSome ∧
      Works (SharedCache.deleteMatching pattern shared).2

/-
  A shared cache that loses nothing: what it holds is found
  when the lookup succeeds, and goes only by a deletion that
  succeeds.
-/
structure Laws.Lasting (laws : Laws Shared) : Prop where
  found_of_holds : ∀ {key value found shared},
    laws.Holds shared key value →
      (get key shared).1 = some found → ∃ value, found = some value
  get : ∀ {key shared other value},
    laws.Holds shared other value →
      laws.Holds (get key shared).2 other value
  put : ∀ {key seconds value shared},
    (put key seconds value shared).1.isSome →
      laws.Holds (put key seconds value shared).2 key value
  put_other : ∀ {key seconds value shared other found},
    laws.Holds shared other found → other ≠ key →
      laws.Holds (SharedCache.put key seconds value shared).2
        other found
  delete : ∀ {keys shared other value},
    laws.Holds shared other value →
      (other ∈ keys → (delete keys shared).1 = none) →
        laws.Holds (delete keys shared).2 other value
  deleteMatching : ∀ {pattern shared other value},
    laws.Holds shared other value →
      (Glob.Matches (laws.dialect shared) pattern other →
        (deleteMatching pattern shared).1 = none) →
      laws.Holds (deleteMatching pattern shared).2 other value

end SharedCache

------------------------------------------------------------
-- Caches in Memory
------------------------------------------------------------

namespace Keyspace

variable {Result : Type}
variable {request : Call}
variable {action : Keyspace → Result × Keyspace}
variable {keyspace : Keyspace}
variable {entry : Bytes × Bytes}

/- A keyspace that has recorded another call. -/
def recorded (request : Call) (keyspace : Keyspace) : Keyspace :=
  { keyspace with calls := keyspace.calls ++ [request] }

/- A call succeeds where the cache is available, or fails. -/
theorem call_eq
    (request : Call)
    (action : Keyspace → Result × Keyspace)
    (keyspace : Keyspace) :
    call request action keyspace =
      if keyspace.available then
        (some (action (keyspace.recorded request)).1,
          (action (keyspace.recorded request)).2)
      else
        (none, keyspace.recorded request) := rfl

/- What a call leaves was left by its action, or was there. -/
theorem mem_of_mem_call
    (hEntry : entry ∈ (call request action keyspace).2.entries) :
    entry ∈ (action (keyspace.recorded request)).2.entries ∨
      entry ∈ keyspace.entries := by
  rw [call_eq] at hEntry
  split at hEntry
  · exact .inl hEntry
  · exact .inr hEntry

/- A call that succeeds has run its action. -/
theorem eq_of_call
    {result : Result}
    (hCall : (call request action keyspace).1 = some result) :
    (call request action keyspace).2 =
        (action (keyspace.recorded request)).2 ∧
      (action (keyspace.recorded request)).1 = result := by
  rw [call_eq] at hCall ⊢
  split at hCall
  · next hAvailable =>
      rw [if_pos hAvailable]
      exact ⟨rfl, Option.some.inj hCall⟩
  · cases hCall

/- What is kept was there and passes the test. -/
theorem mem_retain_iff
    {test : Bytes → Bool} :
    entry ∈ (keyspace.retain test).2.entries ↔
      entry ∈ keyspace.entries ∧ test entry.1 = true :=
  List.mem_filter

/- A value that is found is one that the cache holds. -/
theorem mem_of_find?
    {key value : Bytes}
    (hFind : keyspace.find? key = some value) :
    (key, value) ∈ keyspace.entries := by
  rcases Option.map_eq_some_iff.mp hFind with
    ⟨⟨found, held⟩, hEntry, rfl⟩
  have hKey := List.find?_some hEntry
  cases of_decide_eq_true hKey
  exact List.mem_of_find?_eq_some hEntry

/- What is held after a value was put. -/
theorem mem_insert
    {key value : Bytes}
    (hEntry : entry ∈ (keyspace.insert key value).entries) :
    entry = (key, value) ∨ entry ∈ keyspace.entries := by
  rcases List.mem_cons.mp hEntry with hNew | hOld
  · exact .inl hNew
  · exact .inr (List.mem_filter.mp hOld).1

/- The entries of a keyspace obey the laws of a shared cache. -/
def laws : SharedCache.Laws Keyspace where
  Holds keyspace key value := (key, value) ∈ keyspace.entries
  dialect := Keyspace.dialect
  holds_of_get hGet := mem_of_find? (eq_of_call hGet).2
  holds_get hHolds := by
    rcases mem_of_mem_call hHolds with hHolds | hHolds <;>
      exact hHolds
  holds_put hHolds := by
    rcases mem_of_mem_call hHolds with hHolds | hHolds
    · exact (mem_insert hHolds).imp_left Prod.mk.inj
    · exact .inr hHolds
  holds_delete hHolds := by
    rcases mem_of_mem_call hHolds with hHolds | hHolds
    · exact (mem_retain_iff.mp hHolds).1
    · exact hHolds
  not_mem_of_delete {keys count shared other found}
      hDelete hHolds := by
    have hAfter :
        (SharedCache.delete keys shared).2 =
          (removeAll (shared.recorded (.delete keys)) keys).2 :=
      (eq_of_call hDelete).1
    rw [hAfter] at hHolds
    simpa using (mem_retain_iff.mp hHolds).2
  holds_deleteMatching hHolds := by
    rcases mem_of_mem_call hHolds with hHolds | hHolds
    · exact (mem_retain_iff.mp hHolds).1
    · exact hHolds
  not_matches_of_deleteMatching
      {pattern count shared other found} hDelete hHolds := by
    have hAfter :
        (SharedCache.deleteMatching pattern shared).2 =
          (removeMatching
            (shared.recorded (.deleteMatching pattern))
            pattern).2 :=
      (eq_of_call hDelete).1
    rw [hAfter] at hHolds
    have hTest := (mem_retain_iff.mp hHolds).2
    exact of_decide_eq_false (Bool.not_eq_true' _ ▸ hTest)

/- What a keyspace holds is found. -/
theorem exists_find?
    {key value : Bytes}
    (hEntry : (key, value) ∈ keyspace.entries) :
    ∃ found, keyspace.find? key = some found := by
  have hFound :
      (keyspace.entries.find? fun entry => entry.1 = key).isSome :=
    List.find?_isSome.mpr
      ⟨(key, value), hEntry, decide_eq_true rfl⟩
  rcases Option.isSome_iff_exists.mp hFound with ⟨found, hFind⟩
  exact ⟨found.2, by rw [find?, hFind]; rfl⟩

/- A call only removes what its action removes. -/
theorem mem_call
    (hEntry : entry ∈ keyspace.entries)
    (hAction :
      (call request action keyspace).1.isSome →
        entry ∈ (action (keyspace.recorded request)).2.entries) :
    entry ∈ (call request action keyspace).2.entries := by
  rw [call_eq] at hAction ⊢
  split
  · next hAvailable =>
      rw [if_pos hAvailable] at hAction
      exact hAction rfl
  · exact hEntry

/- A keyspace loses nothing. -/
theorem lasting : laws.Lasting where
  found_of_holds hHolds hGet := by
    rcases exists_find? hHolds with ⟨value, hFind⟩
    exact ⟨value, (eq_of_call hGet).2.symm.trans hFind⟩
  get hHolds := mem_call hHolds fun _ => hHolds
  put {key seconds value shared} hPut := by
    rcases Option.isSome_iff_exists.mp hPut with ⟨_, hDone⟩
    have hAfter :
        (SharedCache.put key seconds value shared).2 =
          (shared.recorded (.put key seconds value)).insert key
            value :=
      (eq_of_call hDone).1
    rw [hAfter]
    exact List.mem_cons_self
  put_other hHolds hOther :=
    mem_call hHolds fun _ =>
      List.mem_cons_of_mem _
        (List.mem_filter.mpr ⟨hHolds, decide_eq_true hOther⟩)
  delete {keys shared other value} hHolds hKept := by
    refine mem_call hHolds fun hDone =>
      mem_retain_iff.mpr ⟨hHolds, ?_⟩
    rw [Bool.not_eq_true', List.contains_eq_mem,
      decide_eq_false_iff_not]
    intro hMember
    exact absurd (hKept hMember) (Option.isSome_iff_ne_none.mp hDone)
  deleteMatching {pattern shared other value} hHolds hKept := by
    refine mem_call hHolds fun hDone =>
      mem_retain_iff.mpr ⟨hHolds, ?_⟩
    rw [Bool.not_eq_true', decide_eq_false_iff_not]
    intro hMatches
    exact absurd (hKept hMatches)
      (Option.isSome_iff_ne_none.mp hDone)

/-
  A call succeeds while the cache is available, and its
  action does not change that.
-/
theorem call_of_available
    (hAvailable : keyspace.available = true)
    (hAction :
      (action (keyspace.recorded request)).2.available =
        keyspace.available) :
    (call request action keyspace).1.isSome ∧
      (call request action keyspace).2.available = true := by
  rw [call_eq, if_pos hAvailable]
  exact ⟨rfl, hAction.trans hAvailable⟩

/- While it is available, no call to a keyspace fails. -/
theorem reliable :
    SharedCache.Reliable fun keyspace : Keyspace =>
      keyspace.available = true where
  get _ _ hAvailable := call_of_available hAvailable rfl
  put _ _ _ _ hAvailable := call_of_available hAvailable rfl
  delete _ _ hAvailable := call_of_available hAvailable rfl
  deleteMatching _ _ hAvailable :=
    call_of_available hAvailable rfl

end Keyspace

end Rebac
