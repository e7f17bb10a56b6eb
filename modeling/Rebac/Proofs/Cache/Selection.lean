import Rebac.Proofs.Cache.Recall

/-
  This file proves which decisions are forgotten with a user
  or with an object.

  The near cache tests how its keys start or end, and the
  shared one is given a pattern. Both select the same keys,
  whatever bytes the user or the object consists of: all of
  them are escaped. What else the shared cache takes for a
  pattern does not matter.

  Key definitions include:
    * `SharedCache.Deletes`

  Key theorems include:
    * `Keyspace.deletes`
    * `PermissionCache.holds_call_iff`
    * `PermissionCache.holds_drop_iff`
    * `PermissionCache.forgotten_exactly`
-/

namespace Rebac

------------------------------------------------------------
-- Deletion by Patterns
------------------------------------------------------------

/-
  A shared cache from which a deletion removes exactly the keys
  that its pattern stands for.
-/
structure SharedCache.Deletes
    {Shared : Type} [SharedCache Shared]
    (Holds : Shared → (key value : Bytes) → Prop)
    (Stands : Bytes → Bytes → Prop)
    (shared : Shared) : Prop where
  rules : Glob.Rules Stands
  holds_iff : ∀ {pattern key value},
    Holds (deleteMatching pattern shared).2 key value ↔
      Holds shared key value ∧ ¬ Stands pattern key

/- Deletion from a keyspace follows its dialect. -/
theorem Keyspace.deletes
    {keyspace : Keyspace}
    (hAvailable : keyspace.available = true) :
    SharedCache.Deletes Keyspace.laws.Holds
      (Glob.Matches keyspace.dialect) keyspace where
  rules := Glob.rules_matches keyspace.dialect
  holds_iff {pattern key value} := by
    have hAfter :
        (SharedCache.deleteMatching pattern keyspace).2 =
          ((keyspace.recorded
            (.deleteMatching pattern)).removeMatching pattern).2 := by
      change (call _ _ _).2 = _
      rw [call_eq, if_pos hAvailable]
    change (key, value) ∈ _ ↔ (key, value) ∈ _ ∧ _
    rw [hAfter, removeMatching, mem_retain_iff,
      Bool.not_eq_true', decide_eq_false_iff_not]
    rfl

namespace PermissionCache

variable {Shared : Type} [SharedCache Shared]
variable {cache : PermissionCache Shared}
variable {Holds : Shared → (key value : Bytes) → Prop}
variable {Stands : Bytes → Bytes → Prop}
variable {shared : Shared}
variable {scope : Scope}

------------------------------------------------------------
-- Removals
------------------------------------------------------------

/-
  A removal takes from the shared cache the copies of what it
  takes from the near one.
-/
theorem holds_call_iff
    (hDeletes : SharedCache.Deletes Holds Stands shared)
    (hPlain : cache.Plain)
    (hScope : ∀ key, scope ≠ .decision key)
    (key value : Bytes) :
    Holds (scope.call cache.settings.keyStart shared).2 key value ↔
      Holds shared key value ∧
        ¬ Scope.Copies cache.settings.keyStart
          (fun text => scope.Removes text) key := by
  cases scope with
  | decision other => exact absurd rfl (hScope other)
  | user id =>
      rw [← Scope.stands_userStart_iff hDeletes.rules hPlain]
      exact hDeletes.holds_iff
  | object id =>
      rw [← Scope.stands_objectEnd_iff hDeletes.rules hPlain]
      exact hDeletes.holds_iff
  | all tallies =>
      rw [← Scope.stands_keyStart_iff hDeletes.rules hPlain]
      exact hDeletes.holds_iff

theorem holds_drop_iff
    (hDeletes : SharedCache.Deletes Holds Stands shared)
    (hPlain : cache.Plain)
    (hShared : cache.shared = some shared)
    (hScope : ∀ key, scope ≠ .decision key) :
    ∃ after, (cache.drop scope).shared = some after ∧
      ∀ key value,
        Holds after key value ↔
          Holds shared key value ∧
            ¬ Scope.Copies cache.settings.keyStart
              (fun text => scope.Removes text) key := by
  refine ⟨_, (drop_shared scope cache).trans
    (congrArg _ hShared), ?_⟩
  exact holds_call_iff hDeletes hPlain hScope

/-
  With a user, exactly the near keys are forgotten that start
  with the user and a bar, and exactly the shared copies of
  such keys. With an object, these are the keys that end with
  a bar and the object. The user and the object are any bytes.
-/
theorem forgotten_exactly
    (hPlain : cache.Plain)
    (user object : Bytes) :
    (cache.invalidateUser user).near.entries =
        cache.near.entries.filter
          (fun entry => ¬ user ++ [bar] <+: entry.key) ∧
      (cache.invalidateObject object).near.entries =
        cache.near.entries.filter
          (fun entry => ¬ bar :: object <:+ entry.key) ∧
      ∀ (Holds : Shared → (key value : Bytes) → Prop)
        (Stands : Bytes → Bytes → Prop) (shared : Shared),
        SharedCache.Deletes Holds Stands shared →
        cache.shared = some shared →
          (∃ after,
            (cache.invalidateUser user).shared = some after ∧
              ∀ key value,
                Holds after key value ↔
                  Holds shared key value ∧
                    ¬ Scope.Copies cache.settings.keyStart
                      (fun text => user ++ [bar] <+: text)
                      key) ∧
          ∃ after,
            (cache.invalidateObject object).shared = some after ∧
              ∀ key value,
                Holds after key value ↔
                  Holds shared key value ∧
                    ¬ Scope.Copies cache.settings.keyStart
                      (fun text => bar :: object <:+ text)
                      key := by
  refine ⟨drop_near_entries (.user user) cache,
    drop_near_entries (.object object) cache, ?_⟩
  intro Holds Stands shared hDeletes hShared
  have hUser : ∀ key, Scope.user user ≠ .decision key := nofun
  have hObject : ∀ key, Scope.object object ≠ .decision key :=
    nofun
  exact ⟨holds_drop_iff hDeletes hPlain hShared hUser,
    holds_drop_iff hDeletes hPlain hShared hObject⟩

end PermissionCache

------------------------------------------------------------
-- An Example
------------------------------------------------------------

namespace Readers

open PermissionCache

/- A user whose name is full of signs, and ends with one. -/
def signs : Bytes :=
  utf8 "user:*?[a-z]\\"

/- What two users may read is kept, near and shared. -/
def kept : PermissionCache Keyspace :=
  cache.run
    [⟨0, .set { key with user := signs } true⟩,
      ⟨0, .set key true⟩]

/- The other user's decision is the only one that stays. -/
theorem signs_forgotten :
    kept.Plain ∧
      (kept.invalidateUser signs).near.entries.map
          Recency.Entry.key = [keyText key] ∧
      ∃ after,
        (kept.invalidateUser signs).shared = some after ∧
          (∀ value,
            (utf8 "authz:perm:" ++
                keyText { key with user := signs }, value) ∉
              after.entries) ∧
          (utf8 "authz:perm:" ++ keyText key, allowedText) ∈
            after.entries := by
  have hPlain : kept.Plain := by decide +kernel
  have hForgotten := forgotten_exactly hPlain signs []
  refine ⟨hPlain, ?_, ?_⟩
  · rw [hForgotten.1]
    decide +kernel
  · have hBefore :
        ∀ shared ∈ kept.shared,
          shared.available = true ∧
            (utf8 "authz:perm:" ++ keyText key, allowedText) ∈
              shared.entries := by
      decide +kernel
    rcases Option.isSome_iff_exists.mp
        (by decide +kernel : kept.shared.isSome) with
      ⟨shared, hShared⟩
    rcases hBefore shared hShared with ⟨hAvailable, hEntry⟩
    rcases (hForgotten.2.2 _ _ shared (Keyspace.deletes hAvailable)
        hShared).1 with ⟨after, hAfter, hHolds⟩
    refine ⟨after, hAfter, fun value hValue => ?_, ?_⟩
    · refine ((hHolds _ value).mp hValue).2 ⟨_, rfl, ?_⟩
      exact ⟨_, List.append_assoc _ _ _⟩
    · refine (hHolds _ allowedText).mpr ⟨hEntry, ?_⟩
      refine fun hCopies => absurd
        (Scope.copies_append_iff.mp hCopies) ?_
      decide +kernel

end Readers

end Rebac
