import Mathlib.Data.Finset.Card
import Rebac.Proofs.Tuple.Key
import Rebac.Store.Write

/-
  This file defines what a batch does to the rows of the
  tables, apart from how its statements are run.

  A key is deleted or written in one of two ways each: its
  live tuple is retired, or nothing is done; a tuple is
  entered for it, or nothing is done. Whatever these two
  changes leave true holds after every batch.

  Key definitions include:
    * `Tables.retire`
    * `Tables.enter`
    * `Tables.liveKeys`
    * `Tables.Sound`
    * `Tables.liveOf`
    * `Tables.Deletes`
    * `Tables.Writes`
    * `Tables.Each`
    * `Tables.Batch`
    * `Tables.next`
    * `Tables.Kept`

  Key theorems include:
    * `Tables.Sound.retire`
    * `Tables.Sound.enter`
    * `Tables.Sound.live_cases`
    * `Tables.Batch.preserves`
    * `Tables.kept_of_sound`
-/

namespace Rebac

namespace Tables

------------------------------------------------------------
-- Changes of Rows
------------------------------------------------------------

/- The tables after a tuple was marked as deleted and logged. -/
def retire
    (txid now : Int)
    (id entry : Bytes)
    (tables : Tables) : Tables :=
  { tables with
    tuples := tables.tuples.map fun tuple =>
      if tuple.id = id then
        { tuple with deleted := some txid }
      else
        tuple
    changes := tables.changes ++
      [{ id := entry
         operation := .delete
         tuple := id
         txid := txid
         time := now }] }

/- The tables after a tuple was inserted and logged. -/
def enter
    (txid now : Int)
    (id entry : Bytes)
    (parts : TupleKey.Parts)
    (tables : Tables) : Tables :=
  { tables with
    tuples := tables.tuples ++
      [{ id := id
         parts := parts
         created := txid
         deleted := none
         time := now }]
    changes := tables.changes ++
      [{ id := entry
         operation := .write
         tuple := id
         txid := txid
         time := now }] }

theorem ids_retire
    {tables : Tables}
    {txid now : Int}
    {id entry : Bytes} :
    (tables.retire txid now id entry).tuples.map
        StoredTuple.id =
      tables.tuples.map StoredTuple.id := by
  simp only [retire, List.map_map]
  apply List.map_congr_left
  intro tuple _
  simp only [Function.comp_apply]
  split <;> rfl

theorem ids_enter
    {tables : Tables}
    {txid now : Int}
    {id entry : Bytes}
    {parts : TupleKey.Parts} :
    (tables.enter txid now id entry parts).tuples.map
        StoredTuple.id =
      tables.tuples.map StoredTuple.id ++ [id] := by
  simp [enter]

/- The keys of the live tuples. -/
def liveKeys (tables : Tables) : Finset TupleKey :=
  ((tables.tuples.filter fun tuple => tuple.Live).map
    StoredTuple.key).toFinset

theorem mem_liveKeys_iff
    {tables : Tables}
    {key : TupleKey} :
    key ∈ tables.liveKeys ↔
      ∃ tuple ∈ tables.tuples, tuple.Live ∧ tuple.key = key := by
  simp [liveKeys, and_assoc]

------------------------------------------------------------
-- Soundness
------------------------------------------------------------

/-
  No two rows of a table share their id, every tuple has the
  parts of a key, and no two live tuples have the same one.
-/
structure Sound (tables : Tables) : Prop where
  ids : (tables.tuples.map StoredTuple.id).Nodup
  entries : (tables.changes.map Change.id).Nodup
  valid : ∀ tuple ∈ tables.tuples, tuple.parts.Valid
  keys : ∀ first ∈ tables.tuples, ∀ second ∈ tables.tuples,
    first.Live → second.Live →
      first.key = second.key → first = second

/- A tuple is told by its id. -/
theorem Sound.eq_of_id_eq
    {tables : Tables}
    {first second : StoredTuple}
    (hSound : tables.Sound)
    (hFirst : first ∈ tables.tuples)
    (hSecond : second ∈ tables.tuples)
    (hSame : first.id = second.id) :
    first = second :=
  List.inj_on_of_nodup_map hSound.ids hFirst hSecond hSame

/- The tuples of a sound table are all different. -/
theorem Sound.nodup
    {tables : Tables}
    (hSound : tables.Sound) :
    tables.tuples.Nodup :=
  hSound.ids.of_map StoredTuple.id

/- The live tuples of a key. -/
def liveOf
    (tables : Tables)
    (key : TupleKey) : List StoredTuple :=
  tables.tuples.filter fun tuple => tuple.Live ∧ tuple.key = key

theorem mem_liveOf_iff
    {tables : Tables}
    {key : TupleKey}
    {tuple : StoredTuple} :
    tuple ∈ tables.liveOf key ↔
      tuple ∈ tables.tuples ∧ tuple.Live ∧ tuple.key = key := by
  simp [liveOf]

/- A key has one live tuple or none. -/
theorem Sound.live_cases
    {tables : Tables}
    (hSound : tables.Sound)
    (key : TupleKey) :
    (tables.liveOf key = [] ∧ key ∉ tables.liveKeys) ∨
      ∃ tuple,
        tables.liveOf key = [tuple] ∧
          tuple ∈ tables.tuples ∧ tuple.Live ∧
            tuple.key = key := by
  have hNodup : (tables.liveOf key).Nodup :=
    hSound.nodup.filter _
  rcases hLive : tables.liveOf key with _ | ⟨tuple, others⟩
  · left
    refine ⟨rfl, ?_⟩
    intro hKey
    rcases mem_liveKeys_iff.mp hKey with ⟨tuple, hTuple⟩
    have hFound := mem_liveOf_iff.mpr hTuple
    rw [hLive] at hFound
    cases hFound
  · right
    have hOf :
        ∀ other ∈ tuple :: others,
          other ∈ tables.tuples ∧ other.Live ∧
            other.key = key := by
      intro other hOther
      rw [← hLive] at hOther
      exact mem_liveOf_iff.mp hOther
    have hFirst := hOf tuple List.mem_cons_self
    have hOthers : others = [] := by
      apply List.eq_nil_iff_forall_not_mem.mpr
      intro other hOther
      have hSecond := hOf other (List.mem_cons_of_mem _ hOther)
      have hSame : tuple = other :=
        hSound.keys tuple hFirst.1 other hSecond.1 hFirst.2.1
          hSecond.2.1 (hFirst.2.2.trans hSecond.2.2.symm)
      rw [hLive, hSame] at hNodup
      exact (List.nodup_cons.mp hNodup).1 hOther
    exact ⟨tuple, by rw [hOthers], hFirst⟩

theorem Sound.retire
    {tables : Tables}
    {txid now : Int}
    {id entry : Bytes}
    (hSound : tables.Sound)
    (hEntry : entry ∉ tables.changes.map Change.id) :
    (tables.retire txid now id entry).Sound where
  ids := by
    rw [ids_retire]
    exact hSound.ids
  entries := by
    simp only [Tables.retire, List.map_append]
    exact List.nodup_append'.mpr
      ⟨hSound.entries, List.nodup_singleton _, by simpa using hEntry⟩
  valid := by
    intro marked hMarked
    rcases List.mem_map.mp hMarked with ⟨tuple, hTuple, rfl⟩
    have hValid := hSound.valid tuple hTuple
    split <;> exact hValid
  keys := by
    have hOld :
        ∀ marked ∈ (tables.retire txid now id entry).tuples,
          marked.Live → marked ∈ tables.tuples := by
      intro marked hMarked hLive
      rcases List.mem_map.mp hMarked with ⟨tuple, hTuple, rfl⟩
      split at hLive
      · cases hLive
      · next hOther =>
          rw [if_neg hOther]
          exact hTuple
    intro first hFirst second hSecond hFirstLive hSecondLive
    exact hSound.keys first (hOld first hFirst hFirstLive)
      second (hOld second hSecond hSecondLive)
      hFirstLive hSecondLive

theorem Sound.enter
    {tables : Tables}
    {txid now : Int}
    {id entry : Bytes}
    {parts : TupleKey.Parts}
    (hSound : tables.Sound)
    (hValid : parts.Valid)
    (hAbsent : parts.key ∉ tables.liveKeys)
    (hId : id ∉ tables.tuples.map StoredTuple.id)
    (hEntry : entry ∉ tables.changes.map Change.id) :
    (tables.enter txid now id entry parts).Sound where
  ids := by
    rw [ids_enter]
    exact List.nodup_append'.mpr
      ⟨hSound.ids, List.nodup_singleton _, by simpa using hId⟩
  entries := by
    simp only [Tables.enter, List.map_append]
    exact List.nodup_append'.mpr
      ⟨hSound.entries, List.nodup_singleton _, by simpa using hEntry⟩
  valid := by
    intro tuple hTuple
    rcases List.mem_append.mp hTuple with hOld | hNew
    · exact hSound.valid tuple hOld
    · cases List.mem_singleton.mp hNew
      exact hValid
  keys := by
    have hOther :
        ∀ tuple ∈ tables.tuples, tuple.Live →
          tuple.key ≠ parts.key := by
      intro tuple hTuple hLive hSame
      exact hAbsent
        (mem_liveKeys_iff.mpr ⟨tuple, hTuple, hLive, hSame⟩)
    intro first hFirst second hSecond hFirstLive hSecondLive hSame
    rcases List.mem_append.mp hFirst with hOld | hNew
    · rcases List.mem_append.mp hSecond with hOld' | hNew'
      · exact hSound.keys first hOld second hOld' hFirstLive
          hSecondLive hSame
      · cases List.mem_singleton.mp hNew'
        exact absurd hSame (hOther first hOld hFirstLive)
    · cases List.mem_singleton.mp hNew
      rcases List.mem_append.mp hSecond with hOld' | hNew'
      · exact absurd hSame.symm
          (hOther second hOld' hSecondLive)
      · cases List.mem_singleton.mp hNew'
        rfl

------------------------------------------------------------
-- Batches
------------------------------------------------------------

/- Deleting a key retires its live tuple, if there is one. -/
inductive Deletes
    (txid now : Int)
    (parts : TupleKey.Parts)
    (tables : Tables) : Nat → Tables → Prop where
  | absent
      (hAbsent : parts.key ∉ tables.liveKeys) :
      Deletes txid now parts tables 0 tables
  | present
      (tuple : StoredTuple)
      (entry : Bytes)
      (hTuple : tuple ∈ tables.tuples)
      (hLive : tuple.Live)
      (hKey : tuple.key = parts.key)
      (hEntry : entry ∉ tables.changes.map Change.id) :
      Deletes txid now parts tables 1
        (tables.retire txid now tuple.id entry)

/- Writing a key enters a tuple, unless one is live. -/
inductive Writes
    (txid now : Int)
    (parts : TupleKey.Parts)
    (tables : Tables) : Nat → Tables → Prop where
  | present
      (hPresent : parts.key ∈ tables.liveKeys) :
      Writes txid now parts tables 0 tables
  | absent
      (id entry : Bytes)
      (hValid : parts.Valid)
      (hAbsent : parts.key ∉ tables.liveKeys)
      (hId : id ∉ tables.tuples.map StoredTuple.id)
      (hEntry : entry ∉ tables.changes.map Change.id) :
      Writes txid now parts tables 1
        (tables.enter txid now id entry parts)

/- Something is done for each element, and counted. -/
inductive Each
    {Element : Type}
    (Does : Element → Tables → Nat → Tables → Prop) :
    List Element → Tables → Nat → Tables → Prop where
  | nil {tables : Tables} :
      Each Does [] tables 0 tables
  | cons
      {element : Element}
      {others : List Element}
      {tables middle after : Tables}
      {first rest : Nat}
      (hFirst : Does element tables first middle)
      (hRest : Each Does others middle rest after) :
      Each Does (element :: others) tables (first + rest) after

/- Keys are deleted, and then keys are written. -/
def Batch
    (txid now : Int)
    (additions removals : List TupleKey.Parts)
    (tables : Tables)
    (receipt : Receipt)
    (after : Tables) : Prop :=
  receipt.txid = txid ∧
    ∃ middle,
      Each (Deletes txid now) removals tables receipt.deleted
          middle ∧
        Each (Writes txid now) additions middle receipt.written
          after

/- The tables when the next transaction has its number. -/
def next (tables : Tables) : Tables :=
  { tables with last := Store.following tables.last }

theorem Sound.next
    {tables : Tables}
    (hSound : tables.Sound) :
    tables.next.Sound :=
  ⟨hSound.ids, hSound.entries, hSound.valid, hSound.keys⟩

/- What neither of the two changes of rows makes false. -/
structure Kept
    (txid now : Int)
    (Holds : Tables → Prop) : Prop where
  retire : ∀ tables tuple entry, Holds tables →
    tuple ∈ tables.tuples → tuple.Live →
      entry ∉ tables.changes.map Change.id →
        Holds (tables.retire txid now tuple.id entry)
  enter : ∀ tables parts id entry, Holds tables →
    parts.Valid → parts.key ∉ tables.liveKeys →
      id ∉ tables.tuples.map StoredTuple.id →
        entry ∉ tables.changes.map Change.id →
          Holds (tables.enter txid now id entry parts)

variable {txid now : Int}
variable {Holds : Tables → Prop}

theorem Each.preserves
    {Element : Type}
    {Does : Element → Tables → Nat → Tables → Prop}
    {elements : List Element}
    {tables after : Tables}
    {count : Nat}
    (hEach : Each Does elements tables count after)
    (hDoes : ∀ element tables count after,
      Does element tables count after →
        Holds tables → Holds after)
    (hHolds : Holds tables) :
    Holds after := by
  induction hEach with
  | nil => exact hHolds
  | cons hFirst _ hOthers =>
      exact hOthers (hDoes _ _ _ _ hFirst hHolds)

theorem Kept.deletes
    (hKept : Kept txid now Holds)
    {parts : TupleKey.Parts}
    {tables after : Tables}
    {count : Nat}
    (hDeletes : Deletes txid now parts tables count after)
    (hHolds : Holds tables) :
    Holds after := by
  cases hDeletes with
  | absent _ => exact hHolds
  | present tuple entry hTuple hLive _ hEntry =>
      exact hKept.retire tables tuple entry hHolds hTuple hLive
        hEntry

theorem Kept.writes
    (hKept : Kept txid now Holds)
    {parts : TupleKey.Parts}
    {tables after : Tables}
    {count : Nat}
    (hWrites : Writes txid now parts tables count after)
    (hHolds : Holds tables) :
    Holds after := by
  cases hWrites with
  | present _ => exact hHolds
  | absent id entry hValid hAbsent hId hEntry =>
      exact hKept.enter tables parts id entry hHolds hValid
        hAbsent hId hEntry

/- What both changes of rows keep, a whole batch keeps. -/
theorem Batch.preserves
    {additions removals : List TupleKey.Parts}
    {tables after : Tables}
    {receipt : Receipt}
    (hBatch :
      Batch txid now additions removals tables receipt after)
    (hKept : Kept txid now Holds)
    (hHolds : Holds tables) :
    Holds after := by
  rcases hBatch with ⟨_, middle, hDeleted, hWritten⟩
  have hMiddle : Holds middle :=
    hDeleted.preserves
      (fun _ _ _ _ hDeletes => hKept.deletes hDeletes) hHolds
  exact hWritten.preserves
    (fun _ _ _ _ hWrites => hKept.writes hWrites) hMiddle

theorem sound_kept : Kept txid now Sound where
  retire _ _ _ hSound _ _ hEntry := hSound.retire hEntry
  enter _ _ _ _ hSound hValid hAbsent hId hEntry :=
    hSound.enter hValid hAbsent hId hEntry

/- What is kept in sound tables is kept with their soundness. -/
theorem kept_of_sound
    (hRetire : ∀ tables tuple entry, tables.Sound →
      Holds tables → tuple ∈ tables.tuples → tuple.Live →
        Holds (tables.retire txid now tuple.id entry))
    (hEnter : ∀ tables parts id entry, Holds tables →
      id ∉ tables.tuples.map StoredTuple.id →
        Holds (tables.enter txid now id entry parts)) :
    Kept txid now fun tables =>
      tables.Sound ∧ Holds tables where
  retire := by
    intro tables tuple entry hBoth hTuple hLive hEntry
    rcases hBoth with ⟨hSound, hHolds⟩
    exact ⟨hSound.retire hEntry,
      hRetire tables tuple entry hSound hHolds hTuple hLive⟩
  enter := by
    intro tables parts id entry hBoth hValid hAbsent hId hEntry
    rcases hBoth with ⟨hSound, hHolds⟩
    exact ⟨hSound.enter hValid hAbsent hId hEntry,
      hEnter tables parts id entry hHolds hId⟩

end Tables

end Rebac
