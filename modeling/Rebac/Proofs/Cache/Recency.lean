import Rebac.Cache.Recency

/-
  This file proves what the operations of a bounded cache do
  to its entries: none but a put adds an entry, and a lookup
  only finds what some entry holds.

  Key definitions include:
    * `Recency.without`
    * `Recency.Lookup`

  Key theorems include:
    * `Recency.lookup_get`
    * `Recency.get_of_mem`
    * `Recency.entries_put`
    * `Recency.entries_remove`
    * `Recency.entries_removeWhere`
    * `Recency.exists_living_of_get`
    * `Recency.exists_entry_of_get`
    * `Recency.mem_of_mem_get`
    * `Recency.get_of_expired`
    * `Recency.eq_or_mem_of_mem_put`
    * `Recency.eq_or_other_of_mem_put`
    * `Recency.get_put`
-/

namespace Rebac

namespace Recency

variable {Value : Type}
variable {cache : Recency Value}
variable {now : Int}
variable {key : Bytes}
variable {entry : Entry Value}

------------------------------------------------------------
-- Entries
------------------------------------------------------------

/- The entries of all other keys. -/
def without
    (key : Bytes)
    (entries : List (Entry Value)) : List (Entry Value) :=
  entries.filter fun entry => entry.key ≠ key

theorem mem_without_iff
    {entries : List (Entry Value)} :
    entry ∈ without key entries ↔
      entry ∈ entries ∧ entry.key ≠ key := by
  simp [without]

/- The keys are those of the nodes. -/
theorem keys_eq (cache : Recency Value) :
    cache.keys = cache.shelf.nodes.map Node.key := by
  rw [keys, entries, Shelf.entries, List.map_map]
  rfl

/- No two entries have the same key. -/
theorem nodup_keys (cache : Recency Value) :
    cache.keys.Nodup := by
  rw [keys_eq]
  exact cache.linked.nodup_keys

/- An entry is known by its key. -/
theorem eq_of_key_eq
    {other : Entry Value}
    (hEntry : entry ∈ cache.entries)
    (hOther : other ∈ cache.entries)
    (hKey : entry.key = other.key) :
    entry = other :=
  Shelf.eq_of_nodup_map cache.nodup_keys hEntry hOther hKey

/- What is left of the row without a node. -/
theorem entries_other
    {node : Node Value}
    (hNode : node ∈ cache.shelf.nodes) :
    (cache.shelf.nodes.filter fun other =>
        other.place ≠ node.place).map Node.entry =
      without node.key cache.entries := by
  rw [without, entries, Shelf.entries, List.filter_map]
  congr 1
  apply List.filter_congr
  intro other hOther
  exact decide_eq_decide.mpr (not_congr
    (cache.linked.key_eq_iff_place_eq hNode hOther).symm)

/- The index leads to an entry of the key, if there is one. -/
theorem locate?_cases (cache : Recency Value) (key : Bytes) :
    cache.shelf.locate? key = none ∧
        (∀ entry ∈ cache.entries, entry.key ≠ key) ∨
      ∃ node ∈ cache.shelf.nodes,
        cache.shelf.locate? key = some node ∧
        node.entry ∈ cache.entries ∧
        node.key = key := by
  cases hLocate : cache.shelf.locate? key with
  | none =>
      refine .inl ⟨rfl, ?_⟩
      rintro entry hEntry rfl
      apply cache.linked.locate?_eq_none_iff.mp hLocate
      rw [← keys_eq]
      exact List.mem_map_of_mem hEntry
  | some node =>
      rcases cache.linked.locate?_iff.mp hLocate with ⟨hNode, hKey⟩
      exact .inr
        ⟨node, hNode, rfl, List.mem_map_of_mem hNode, hKey⟩

------------------------------------------------------------
-- Lookups
------------------------------------------------------------

/-
  How a lookup goes: there is no entry of the key; there is,
  but it has expired and is dropped; or it is found and moved
  to the front.
-/
inductive Lookup
    (now : Int)
    (key : Bytes)
    (entries : List (Entry Value)) :
    Option Value → List (Entry Value) → Prop
  | absent
      (hAbsent : ∀ entry ∈ entries, entry.key ≠ key) :
      Lookup now key entries none entries
  | expired {entry : Entry Value}
      (hEntry : entry ∈ entries)
      (hKey : entry.key = key)
      (hExpired : entry.expires ≤ Clock.nanoseconds now) :
      Lookup now key entries none (without key entries)
  | found {entry : Entry Value}
      (hEntry : entry ∈ entries)
      (hKey : entry.key = key)
      (hLives : Clock.nanoseconds now < entry.expires) :
      Lookup now key entries (some entry.value)
        (entry :: without key entries)

theorem lookup_get
    (cache : Recency Value)
    (now : Int)
    (key : Bytes) :
    Lookup now key cache.entries
      (cache.get now key).1 (cache.get now key).2.entries := by
  change Lookup now key cache.entries
    (cache.shelf.lookUp (Clock.nanoseconds now) key).1
    (cache.shelf.lookUp (Clock.nanoseconds now) key).2.entries
  rcases cache.locate?_cases key with
    ⟨hLocate, hAbsent⟩ | ⟨node, hNode, hLocate, hEntry, rfl⟩
  · simp only [Shelf.lookUp, hLocate]
    exact .absent hAbsent
  · have hOthers := entries_other hNode
    by_cases hExpired :
        node.entry.expires ≤ Clock.nanoseconds now
    · have hDropped : Lookup now node.key cache.entries none
          (without node.key cache.entries) :=
        .expired hEntry rfl hExpired
      rw [← hOthers] at hDropped
      simpa only [Shelf.lookUp, hLocate, if_pos hExpired]
    · have hFound : Lookup now node.key cache.entries
          (some node.entry.value)
          (node.entry :: without node.key cache.entries) :=
        .found hEntry rfl (Int.not_le.mp hExpired)
      rw [← hOthers] at hFound
      simpa only [Shelf.lookUp, hLocate, if_neg hExpired]

/- The entry of a key is found as long as it lives. -/
theorem get_of_mem
    (hEntry : entry ∈ cache.entries)
    (hLives : Clock.nanoseconds now < entry.expires) :
    (cache.get now entry.key).1 = some entry.value := by
  have hLookup := cache.lookup_get now entry.key
  generalize (cache.get now entry.key).1 = answer,
    (cache.get now entry.key).2.entries = kept at hLookup ⊢
  cases hLookup with
  | absent hAbsent => exact absurd rfl (hAbsent entry hEntry)
  | expired hOther hKey hExpired =>
      rw [eq_of_key_eq hOther hEntry hKey] at hExpired
      exact absurd hLives (Int.not_lt.mpr hExpired)
  | found hOther hKey _ =>
      rw [eq_of_key_eq hOther hEntry hKey]

/- A value that is found is that of an entry that lives. -/
theorem exists_living_of_get
    {value : Value}
    (hGet : (cache.get now key).1 = some value) :
    ∃ entry ∈ cache.entries,
      entry.key = key ∧ entry.value = value ∧
        Clock.nanoseconds now < entry.expires := by
  have hLookup := cache.lookup_get now key
  generalize (cache.get now key).1 = answer,
    (cache.get now key).2.entries = kept at hLookup hGet
  cases hLookup with
  | absent _ => cases hGet
  | expired _ _ _ => cases hGet
  | found hEntry hKey hLives =>
      exact ⟨_, hEntry, hKey, Option.some.inj hGet, hLives⟩

theorem exists_entry_of_get
    {value : Value}
    (hGet : (cache.get now key).1 = some value) :
    ∃ entry ∈ cache.entries,
      entry.key = key ∧ entry.value = value := by
  rcases exists_living_of_get hGet with
    ⟨entry, hEntry, hKey, hValue, _⟩
  exact ⟨entry, hEntry, hKey, hValue⟩

/- A lookup adds no entry. -/
theorem mem_of_mem_get
    (hEntry : entry ∈ (cache.get now key).2.entries) :
    entry ∈ cache.entries := by
  have hLookup := cache.lookup_get now key
  generalize (cache.get now key).1 = answer,
    (cache.get now key).2.entries = kept at hLookup hEntry
  cases hLookup with
  | absent _ => exact hEntry
  | expired _ _ _ => exact (mem_without_iff.mp hEntry).1
  | found hFound _ _ =>
      rcases List.mem_cons.mp hEntry with rfl | hOther
      · exact hFound
      · exact (mem_without_iff.mp hOther).1

/- Nothing is found where all entries of a key have expired. -/
theorem get_of_expired
    (hExpired : ∀ entry ∈ cache.entries,
      entry.key = key →
        entry.expires ≤ Clock.nanoseconds now) :
    (cache.get now key).1 = none := by
  have hLookup := cache.lookup_get now key
  generalize (cache.get now key).1 = answer,
    (cache.get now key).2.entries = kept at hLookup ⊢
  cases hLookup with
  | absent _ => rfl
  | expired _ _ _ => rfl
  | found hEntry hKey hLives =>
      exact absurd hLives
        (Int.not_lt.mpr (hExpired _ hEntry hKey))

/- At some time all entries have expired. -/
theorem exists_expired (cache : Recency Value) :
    ∃ now, ∀ entry ∈ cache.entries,
      entry.expires ≤ Clock.nanoseconds now := by
  induction cache.entries with
  | nil => exact ⟨0, nofun⟩
  | cons entry others hOthers =>
      rcases hOthers with ⟨now, hExpired⟩
      refine ⟨max (max entry.expires 0) now, ?_⟩
      intro other hOther
      rcases List.mem_cons.mp hOther with rfl | hOther
      · unfold Clock.nanoseconds
        omega
      · have hBefore := hExpired other hOther
        unfold Clock.nanoseconds at hBefore ⊢
        omega

------------------------------------------------------------
-- Changes
------------------------------------------------------------

/-
  A put leaves the other entries as they are if there was one
  of the key; otherwise those used longest ago make room.
-/
theorem entries_put
    (cache : Recency Value)
    (now : Int)
    (key : Bytes)
    (value : Value) :
    (cache.put now key value).entries =
      if key ∈ cache.keys then
        ⟨key, value, Clock.after now cache.lifetime⟩ ::
          without key cache.entries
      else
        (⟨key, value, Clock.after now cache.lifetime⟩ ::
          cache.entries).take cache.capacity := by
  change (cache.shelf.store cache.capacity
    ⟨key, value, Clock.after now cache.lifetime⟩).entries = _
  rcases cache.locate?_cases key with
    ⟨hLocate, hAbsent⟩ | ⟨node, hNode, hLocate, hEntry, rfl⟩
  · have hNew : key ∉ cache.keys := by
      intro hKey
      rcases List.mem_map.mp hKey with ⟨entry, hEntry, hSame⟩
      exact hAbsent entry hEntry hSame
    simp only [Shelf.store, hLocate, if_neg hNew]
    exact List.map_take
  · have hKey : node.key ∈ cache.keys :=
      List.mem_map_of_mem hEntry
    simp only [Shelf.store, hLocate, if_pos hKey,
      ← entries_other hNode]
    rfl

/- A put adds no entry but that of its key and value. -/
theorem eq_or_mem_of_mem_put
    {value : Value}
    (hEntry : entry ∈ (cache.put now key value).entries) :
    entry = ⟨key, value, Clock.after now cache.lifetime⟩ ∨
      entry ∈ cache.entries := by
  rw [entries_put] at hEntry
  split at hEntry
  · exact (List.mem_cons.mp hEntry).imp_right
      fun hOther => (mem_without_iff.mp hOther).1
  · exact List.mem_cons.mp (List.mem_of_mem_take hEntry)

/- Nor does it keep another entry of that key. -/
theorem eq_or_other_of_mem_put
    {value : Value}
    (hEntry : entry ∈ (cache.put now key value).entries) :
    entry = ⟨key, value, Clock.after now cache.lifetime⟩ ∨
      entry ∈ cache.entries ∧ entry.key ≠ key := by
  rw [entries_put] at hEntry
  split at hEntry
  · exact (List.mem_cons.mp hEntry).imp_right mem_without_iff.mp
  · next hNew =>
      refine (List.mem_cons.mp
        (List.mem_of_mem_take hEntry)).imp_right ?_
      intro hOld
      refine ⟨hOld, ?_⟩
      rintro rfl
      exact hNew (List.mem_map_of_mem hOld)

/- What is kept when a key goes. -/
theorem entries_remove
    (cache : Recency Value)
    (key : Bytes) :
    (cache.remove key).2.entries =
      without key cache.entries := by
  change (cache.shelf.remove key).2.entries = _
  rcases cache.locate?_cases key with
    ⟨hLocate, hAbsent⟩ | ⟨node, hNode, hLocate, hEntry, rfl⟩
  · simp only [Shelf.remove, hLocate]
    symm
    apply List.filter_eq_self.mpr
    intro entry hEntry
    exact decide_eq_true (hAbsent entry hEntry)
  · simp only [Shelf.remove, hLocate, ← entries_other hNode]
    rfl

/- What is kept when the keys that a test holds of go. -/
theorem entries_removeWhere
    (cache : Recency Value)
    (test : Bytes → Bool) :
    (cache.removeWhere test).2.entries =
      cache.entries.filter fun entry => !test entry.key := by
  simp only [entries, Shelf.entries, List.filter_map]
  rfl

@[simp] theorem entries_clear (cache : Recency Value) :
    cache.clear.entries = [] :=
  rfl

/-
  What was just put is found, as long as it lives and the
  cache has room for an entry.
-/
theorem get_put
    {value : Value}
    {later : Int}
    (hRoom : 0 < cache.capacity)
    (hLives :
      Clock.nanoseconds later <
        Clock.after now cache.lifetime) :
    ((cache.put now key value).get later key).1 =
      some value := by
  have hPut :
      ⟨key, value, Clock.after now cache.lifetime⟩ ∈
        (cache.put now key value).entries := by
    rw [entries_put]
    split
    · exact List.mem_cons_self
    · obtain ⟨room, hCapacity⟩ :=
        Nat.exists_eq_add_one_of_ne_zero (Nat.ne_of_gt hRoom)
      rw [hCapacity, List.take_succ_cons]
      exact List.mem_cons_self
  exact get_of_mem hPut hLives

end Recency

end Rebac
