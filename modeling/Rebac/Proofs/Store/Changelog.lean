import Rebac.Proofs.Store.Effect

/-
  This file proves that the log of changes and the tuples
  tell the same story: which tuples were written and deleted,
  and in which transactions. So the state at any transaction
  can be had from the log alone.

  Key definitions include:
    * `Tables.txidsOf`
    * `Tables.Logged`
    * `Tables.Numbered`
    * `Change.apply`
    * `Change.replay`
    * `Tables.Arranges`
    * `Tables.visibleIds`

  Key theorems include:
    * `Tables.logged_kept`
    * `Tables.Batch.length_changes`
    * `Tables.Numbered.batch`
    * `Change.mem_foldl_apply_iff`
    * `Tables.Arranges.pairwise`
    * `Tables.Logged.replay_eq`
    * `Store.length_changes_of_write`
    * `Store.changes_agree`
-/

namespace Rebac

------------------------------------------------------------
-- Entries
------------------------------------------------------------

namespace Tables

/- The transactions of the entries of an operation on a tuple. -/
def txidsOf
    (tables : Tables)
    (operation : Operation)
    (id : Bytes) : List Int :=
  (tables.changes.filter fun change =>
    change.operation = operation ∧ change.tuple = id).map
    Change.txid

/-
  Every tuple has a single entry for its creation, one for
  its deletion exactly if it was deleted, and both name the
  transactions that the tuple names. There are no entries
  but those of tuples.
-/
structure Logged (tables : Tables) : Prop where
  written : ∀ tuple ∈ tables.tuples,
    tables.txidsOf .write tuple.id = [tuple.created]
  deleted : ∀ tuple ∈ tables.tuples,
    tables.txidsOf .delete tuple.id = tuple.deleted.toList
  referred : ∀ change ∈ tables.changes,
    change.tuple ∈ tables.tuples.map StoredTuple.id

variable {tables after : Tables}
variable {txid now : Int}

theorem mem_txidsOf_iff
    {operation : Operation}
    {id : Bytes} :
    txid ∈ tables.txidsOf operation id ↔
      ∃ change ∈ tables.changes,
        change.operation = operation ∧ change.tuple = id ∧
          change.txid = txid := by
  simp [txidsOf, and_assoc]

/- An entry that is added is one of its operation and tuple. -/
theorem txidsOf_append
    (change : Change)
    {operation : Operation}
    {id : Bytes}
    (hChanges : after.changes = tables.changes ++ [change]) :
    after.txidsOf operation id =
      tables.txidsOf operation id ++
        if change.operation = operation ∧ change.tuple = id then
          [change.txid]
        else
          [] := by
  unfold txidsOf
  rw [hChanges, List.filter_append, List.map_append]
  congr 1
  by_cases hEntry :
      change.operation = operation ∧ change.tuple = id
  · simp [hEntry]
  · simp [hEntry]

/- Retiring a tuple adds an entry to those of its deletion. -/
theorem txidsOf_retire
    {operation : Operation}
    {other id entry : Bytes} :
    (tables.retire txid now id entry).txidsOf operation other =
      tables.txidsOf operation other ++
        if .delete = operation ∧ id = other then
          [txid]
        else
          [] :=
  txidsOf_append ⟨entry, .delete, id, txid, now⟩ rfl

/- Entering a tuple adds an entry to those of its creation. -/
theorem txidsOf_enter
    {operation : Operation}
    {other id entry : Bytes}
    {parts : TupleKey.Parts} :
    (tables.enter txid now id entry parts).txidsOf operation
        other =
      tables.txidsOf operation other ++
        if .write = operation ∧ id = other then
          [txid]
        else
          [] :=
  txidsOf_append ⟨entry, .write, id, txid, now⟩ rfl

/- An id that no tuple has occurs in no entry. -/
theorem Logged.txidsOf_eq_nil
    (hLogged : tables.Logged)
    {operation : Operation}
    {id : Bytes}
    (hId : id ∉ tables.tuples.map StoredTuple.id) :
    tables.txidsOf operation id = [] := by
  apply List.eq_nil_iff_forall_not_mem.mpr
  intro txid hTxid
  rcases mem_txidsOf_iff.mp hTxid with
    ⟨change, hChange, _, hTuple, _⟩
  have hReferred := hLogged.referred change hChange
  rw [hTuple] at hReferred
  exact hId hReferred

theorem Logged.retire
    {tuple : StoredTuple}
    {entry : Bytes}
    (hSound : tables.Sound)
    (hLogged : tables.Logged)
    (hTuple : tuple ∈ tables.tuples)
    (hLive : tuple.Live) :
    (tables.retire txid now tuple.id entry).Logged where
  written := by
    intro marked hMarked
    rcases List.mem_map.mp hMarked with ⟨row, hRow, rfl⟩
    have hWritten := hLogged.written row hRow
    rw [txidsOf_retire]
    split <;> simp [hWritten]
  deleted := by
    intro marked hMarked
    rcases List.mem_map.mp hMarked with ⟨row, hRow, rfl⟩
    have hDeleted := hLogged.deleted row hRow
    rw [txidsOf_retire]
    by_cases hId : row.id = tuple.id
    · have hSame := hSound.eq_of_id_eq hRow hTuple hId
      have hNone : row.deleted = none := by
        rw [hSame]
        exact hLive
      rw [hNone] at hDeleted
      simp only [if_pos hId, hDeleted]
      simp [hId]
    · have hOther : tuple.id ≠ row.id := Ne.symm hId
      simp [hId, hOther, hDeleted]
  referred := by
    intro change hChange
    rw [ids_retire]
    rcases List.mem_append.mp hChange with hOld | hNew
    · exact hLogged.referred change hOld
    · rw [List.mem_singleton.mp hNew]
      exact List.mem_map_of_mem hTuple

theorem Logged.enter
    {id entry : Bytes}
    {parts : TupleKey.Parts}
    (hLogged : tables.Logged)
    (hId : id ∉ tables.tuples.map StoredTuple.id) :
    (tables.enter txid now id entry parts).Logged where
  written := by
    intro tuple hTuple
    rw [txidsOf_enter]
    rcases List.mem_append.mp hTuple with hOld | hNew
    · have hOther : id ≠ tuple.id := by
        intro hSame
        apply hId
        rw [hSame]
        exact List.mem_map_of_mem hOld
      simp [hOther, hLogged.written tuple hOld]
    · rw [List.mem_singleton.mp hNew]
      simp [hLogged.txidsOf_eq_nil hId]
  deleted := by
    intro tuple hTuple
    rw [txidsOf_enter]
    rcases List.mem_append.mp hTuple with hOld | hNew
    · simp [hLogged.deleted tuple hOld]
    · rw [List.mem_singleton.mp hNew]
      simp [hLogged.txidsOf_eq_nil hId]
  referred := by
    intro change hChange
    rw [ids_enter, List.mem_append]
    rcases List.mem_append.mp hChange with hOld | hNew
    · exact .inl (hLogged.referred change hOld)
    · rw [List.mem_singleton.mp hNew]
      exact .inr List.mem_cons_self

/- Both changes of rows leave an entry for what they do. -/
theorem logged_kept :
    Kept txid now fun tables =>
      tables.Sound ∧ tables.Logged :=
  kept_of_sound
    (fun _ _ _ hSound hLogged hTuple hLive =>
      hLogged.retire hSound hTuple hLive)
    (fun _ _ _ _ hLogged hId => hLogged.enter hId)

------------------------------------------------------------
-- Counts
------------------------------------------------------------

/- Where each change that is counted has an entry, all have. -/
theorem Each.length_changes
    {Element : Type}
    {Does : Element → Tables → Nat → Tables → Prop}
    {elements : List Element}
    {count : Nat}
    (hEach : Each Does elements tables count after)
    (hDoes : ∀ element tables count after,
      Does element tables count after →
        after.changes.length = tables.changes.length + count) :
    after.changes.length = tables.changes.length + count := by
  induction hEach with
  | nil => rfl
  | cons hFirst _ hOthers =>
      rw [hOthers, hDoes _ _ _ _ hFirst, Nat.add_assoc]

theorem Deletes.length_changes
    {parts : TupleKey.Parts}
    {count : Nat}
    (hDeletes : Deletes txid now parts tables count after) :
    after.changes.length = tables.changes.length + count := by
  cases hDeletes with
  | absent _ => rfl
  | present tuple entry _ _ _ _ => exact List.length_append

theorem Writes.length_changes
    {parts : TupleKey.Parts}
    {count : Nat}
    (hWrites : Writes txid now parts tables count after) :
    after.changes.length = tables.changes.length + count := by
  cases hWrites with
  | present _ => rfl
  | absent id entry _ _ _ _ => exact List.length_append

/- A batch has as many entries as it counts tuples. -/
theorem Batch.length_changes
    {additions removals : List TupleKey.Parts}
    {receipt : Receipt}
    (hBatch :
      Batch txid now additions removals tables receipt after) :
    after.changes.length =
      tables.changes.length +
        (receipt.written + receipt.deleted) := by
  rcases hBatch with ⟨_, middle, hDeleted, hWritten⟩
  rw [hWritten.length_changes
      fun _ _ _ _ hWrites => hWrites.length_changes,
    hDeleted.length_changes
      fun _ _ _ _ hDeletes => hDeletes.length_changes,
    Nat.add_assoc, Nat.add_comm receipt.deleted]

------------------------------------------------------------
-- Numbers
------------------------------------------------------------

/-
  Transactions count from one, and no tuple is deleted in the
  transaction that created it. After the greatest number no
  other one follows, and then both may be the same.
-/
structure Numbered (tables : Tables) : Prop where
  last : 0 ≤ tables.last
  positive : ∀ tuple ∈ tables.tuples, 0 < tuple.created
  ordered : ∀ tuple ∈ tables.tuples, ∀ deleted ∈ tuple.deleted,
    tuple.created < deleted ∨ deleted = Numeral.largestInt64

/- A batch has a greater number than all tuples before it. -/
theorem Numbered.batch
    {additions removals : List TupleKey.Parts}
    {receipt : Receipt}
    (hNumbered : tables.Numbered)
    (hSound : tables.Sound)
    (hTimely : tables.Timely)
    (hBatch :
      Batch (Store.following tables.last) now additions removals
        tables.next receipt after) :
    after.Numbered := by
  have hOutcome := hBatch.outcome hSound
  have hTxid : receipt.txid = Store.following tables.last :=
    hBatch.1
  have hBefore := hNumbered.last
  have hGreatest := hTimely.last
  have hLargest : 0 < Numeral.largestInt64 := by decide
  have hNext :
      0 < receipt.txid ∧
        (tables.last < receipt.txid ∨
          receipt.txid = Numeral.largestInt64) := by
    unfold Store.following at hTxid
    omega
  rcases hOutcome.rows with ⟨added, hTuples, hAdded⟩
  constructor
  · rw [hOutcome.last]
    exact Int.le_of_lt hNext.1
  · intro tuple hTuple
    rw [hTuples] at hTuple
    rcases List.mem_append.mp hTuple with hOld | hNew
    · rcases List.mem_map.mp hOld with ⟨row, hRow, rfl⟩
      have hPositive := hNumbered.positive row hRow
      unfold StoredTuple.marked
      split <;> exact hPositive
    · rw [(hAdded tuple hNew).1]
      exact hNext.1
  · intro tuple hTuple deleted hDeleted
    rw [hTuples] at hTuple
    rcases List.mem_append.mp hTuple with hOld | hNew
    · rcases List.mem_map.mp hOld with ⟨row, hRow, rfl⟩
      unfold StoredTuple.marked at hDeleted ⊢
      split at hDeleted
      · next hMarked =>
          rw [if_pos hMarked]
          cases hDeleted
          have hCreated := hTimely.created row hRow
          rcases hNext.2 with hLater | hFull
          · exact .inl (Int.lt_of_le_of_lt hCreated hLater)
          · exact .inr hFull
      · next hSame =>
          rw [if_neg hSame]
          exact hNumbered.ordered row hRow deleted hDeleted
    · rw [(hAdded tuple hNew).2] at hDeleted
      cases hDeleted

end Tables

------------------------------------------------------------
-- Replay
------------------------------------------------------------

namespace Change

/- The ids of the tuples after a change. -/
def apply (ids : Finset Bytes) (change : Change) : Finset Bytes :=
  match change.operation with
  | .write => insert change.tuple ids
  | .delete => ids.erase change.tuple

/- The ids of the tuples after some changes from the start. -/
def replay (changes : List Change) : Finset Bytes :=
  changes.foldl apply ∅

/- A change of a tuple. -/
def Is
    (operation : Operation)
    (id : Bytes)
    (change : Change) : Prop :=
  change.operation = operation ∧ change.tuple = id

theorem mem_apply_iff
    {ids : Finset Bytes}
    {change : Change}
    {id : Bytes} :
    id ∈ change.apply ids ↔
      (id ∈ ids ∨ change.Is .write id) ∧
        ¬ change.Is .delete id := by
  unfold Is
  cases hOperation : change.operation with
  | write => simp [apply, hOperation, eq_comm, or_comm]
  | delete => simp [apply, hOperation, eq_comm, and_comm]

/-
  A tuple whose deletion comes after all that is written of
  it is there in the end if it was written and not deleted.
-/
theorem mem_foldl_apply_iff
    {id : Bytes}
    {changes : List Change}
    {ids : Finset Bytes}
    (hOrder : changes.Pairwise fun first second =>
      ¬ (first.Is .delete id ∧ second.Is .write id)) :
    id ∈ changes.foldl apply ids ↔
      (id ∈ ids ∨ ∃ change ∈ changes, change.Is .write id) ∧
        ∀ change ∈ changes, ¬ change.Is .delete id := by
  induction changes generalizing ids with
  | nil => simp
  | cons first others hOthers =>
      rcases List.pairwise_cons.mp hOrder with ⟨hFirst, hRest⟩
      rw [List.foldl_cons, hOthers hRest, mem_apply_iff]
      simp only [List.mem_cons, exists_eq_or_imp,
        forall_eq_or_imp]
      by_cases hDeleted : first.Is .delete id
      · have hNone :
            ¬ ∃ change ∈ others, change.Is .write id := by
          intro hSome
          rcases hSome with ⟨change, hChange, hWritten⟩
          exact hFirst change hChange ⟨hDeleted, hWritten⟩
        simp [hDeleted, hNone]
      · simp [hDeleted, or_assoc]

end Change

namespace Tables

variable {tables : Tables}
variable {txid : Int}

/-
  The entries up to a transaction, by their transactions; the
  entries of one transaction are in any order.
-/
structure Arranges
    (tables : Tables)
    (txid : Int)
    (entries : List Change) : Prop where
  all : entries.Perm
    (tables.changes.filter fun change => change.txid ≤ txid)
  sorted : entries.Pairwise fun first second =>
    first.txid ≤ second.txid

/- The ids of the tuples in the snapshot at a transaction. -/
def visibleIds
    (tables : Tables)
    (txid : Int) : Finset Bytes :=
  ((tables.tuples.filter fun tuple => tuple.VisibleAt txid).map
    StoredTuple.id).toFinset

theorem Arranges.mem_iff
    {entries : List Change}
    (hArranges : tables.Arranges txid entries)
    (change : Change) :
    change ∈ entries ↔
      change ∈ tables.changes ∧ change.txid ≤ txid := by
  rw [hArranges.all.mem_iff, List.mem_filter,
    decide_eq_true_iff]

/- An entry is that of the creation or deletion of a tuple. -/
theorem Logged.exists_tuple
    (hLogged : tables.Logged)
    {change : Change}
    {operation : Operation}
    {id : Bytes}
    (hChange : change ∈ tables.changes)
    (hIs : change.Is operation id) :
    ∃ tuple ∈ tables.tuples, tuple.id = id ∧
      change.txid ∈ tables.txidsOf operation tuple.id := by
  rcases hIs with ⟨hOperation, hTuple⟩
  have hReferred := hLogged.referred change hChange
  rcases List.mem_map.mp hReferred with ⟨tuple, hRow, hId⟩
  rw [hTuple] at hId
  refine ⟨tuple, hRow, hId, ?_⟩
  exact mem_txidsOf_iff.mpr
    ⟨change, hChange, hOperation, hTuple.trans hId.symm, rfl⟩

/- A tuple was written up to the transactions from its own on. -/
theorem Logged.exists_write_iff
    (hSound : tables.Sound)
    (hLogged : tables.Logged)
    {tuple : StoredTuple}
    (hTuple : tuple ∈ tables.tuples) :
    (∃ change ∈ tables.changes,
      change.txid ≤ txid ∧ change.Is .write tuple.id) ↔
        tuple.created ≤ txid := by
  have hWritten := hLogged.written tuple hTuple
  constructor
  · intro hEntry
    rcases hEntry with ⟨change, hChange, hBefore, hIs⟩
    rcases hLogged.exists_tuple hChange hIs with
      ⟨row, hRow, hId, hTxid⟩
    have hSame := hSound.eq_of_id_eq hRow hTuple hId
    rw [hSame, hWritten, List.mem_singleton] at hTxid
    rw [← hTxid]
    exact hBefore
  · intro hBefore
    have hTxid :
        tuple.created ∈ tables.txidsOf .write tuple.id := by
      rw [hWritten]
      exact List.mem_singleton_self _
    rcases mem_txidsOf_iff.mp hTxid with
      ⟨change, hChange, hOperation, hId, hCreated⟩
    refine ⟨change, hChange, ?_, hOperation, hId⟩
    rw [hCreated]
    exact hBefore

/- A tuple was deleted up to the transactions from that one on. -/
theorem Logged.exists_delete_iff
    (hSound : tables.Sound)
    (hLogged : tables.Logged)
    {tuple : StoredTuple}
    (hTuple : tuple ∈ tables.tuples) :
    (∃ change ∈ tables.changes,
      change.txid ≤ txid ∧ change.Is .delete tuple.id) ↔
        ∃ deleted ∈ tuple.deleted, deleted ≤ txid := by
  have hDeleted := hLogged.deleted tuple hTuple
  constructor
  · intro hEntry
    rcases hEntry with ⟨change, hChange, hBefore, hIs⟩
    rcases hLogged.exists_tuple hChange hIs with
      ⟨row, hRow, hId, hTxid⟩
    have hSame := hSound.eq_of_id_eq hRow hTuple hId
    rw [hSame, hDeleted, Option.mem_toList] at hTxid
    exact ⟨change.txid, hTxid, hBefore⟩
  · intro hGone
    rcases hGone with ⟨deleted, hMem, hBefore⟩
    have hTxid :
        deleted ∈ tables.txidsOf .delete tuple.id := by
      rw [hDeleted, Option.mem_toList]
      exact hMem
    rcases mem_txidsOf_iff.mp hTxid with
      ⟨change, hChange, hOperation, hId, hSame⟩
    refine ⟨change, hChange, ?_, hOperation, hId⟩
    rw [hSame]
    exact hBefore

/-
  No entry of a deletion stands before one of the creation,
  if no tuple was deleted in the transaction that created it.
-/
theorem Arranges.pairwise
    {entries : List Change}
    (hArranges : tables.Arranges txid entries)
    (hSound : tables.Sound)
    (hLogged : tables.Logged)
    (hOrdered : ∀ tuple ∈ tables.tuples,
      ∀ deleted ∈ tuple.deleted, tuple.created < deleted)
    (id : Bytes) :
    entries.Pairwise fun first second =>
      ¬ (first.Is .delete id ∧ second.Is .write id) := by
  refine hArranges.sorted.imp_of_mem ?_
  intro first second hFirst hSecond hBefore hBoth
  rcases hBoth with ⟨hDelete, hWrite⟩
  have hGone := ((hArranges.mem_iff first).mp hFirst).1
  have hMade := ((hArranges.mem_iff second).mp hSecond).1
  rcases hLogged.exists_tuple hGone hDelete with
    ⟨tuple, hTuple, hId, hDeleted⟩
  rcases hLogged.exists_tuple hMade hWrite with
    ⟨row, hRow, hSameId, hCreated⟩
  have hSame :=
    hSound.eq_of_id_eq hRow hTuple (hSameId.trans hId.symm)
  rw [hLogged.deleted tuple hTuple, Option.mem_toList]
    at hDeleted
  rw [hSame, hLogged.written tuple hTuple,
    List.mem_singleton] at hCreated
  have hLater := hOrdered tuple hTuple _ hDeleted
  omega

/-
  Replaying the entries up to a transaction leaves the tuples
  of the snapshot at it, if no tuple was deleted in the
  transaction that created it.
-/
theorem Logged.replay_eq
    (hSound : tables.Sound)
    (hLogged : tables.Logged)
    (hOrdered : ∀ tuple ∈ tables.tuples,
      ∀ deleted ∈ tuple.deleted, tuple.created < deleted)
    {entries : List Change}
    (hArranges : tables.Arranges txid entries) :
    Change.replay entries = tables.visibleIds txid := by
  ext id
  have hOrder :=
    hArranges.pairwise hSound hLogged hOrdered id
  rw [Change.replay, Change.mem_foldl_apply_iff hOrder]
  simp only [hArranges.mem_iff, visibleIds, List.mem_toFinset,
    List.mem_map, List.mem_filter, decide_eq_true_iff,
    Finset.notMem_empty, false_or]
  constructor
  · intro hReplayed
    rcases hReplayed with
      ⟨⟨change, ⟨hChange, hBefore⟩, hWrite⟩, hKept⟩
    rcases hLogged.exists_tuple hChange hWrite with
      ⟨tuple, hTuple, rfl, _⟩
    refine ⟨tuple, ⟨hTuple, ?_, ?_⟩, rfl⟩
    · exact (hLogged.exists_write_iff hSound hTuple).mp
        ⟨change, hChange, hBefore, hWrite⟩
    · intro deleted hDeleted
      by_contra hGone
      rcases (hLogged.exists_delete_iff hSound hTuple).mpr
          ⟨deleted, hDeleted, Int.not_lt.mp hGone⟩ with
        ⟨entry, hEntry, hEarlier, hDelete⟩
      exact hKept entry ⟨hEntry, hEarlier⟩ hDelete
  · intro hShown
    rcases hShown with ⟨tuple, ⟨hTuple, hCreated, hLater⟩, rfl⟩
    constructor
    · rcases (hLogged.exists_write_iff hSound hTuple).mpr
          hCreated with ⟨change, hChange, hBefore, hWrite⟩
      exact ⟨change, ⟨hChange, hBefore⟩, hWrite⟩
    · intro change hEntry hDelete
      rcases hEntry with ⟨hChange, hBefore⟩
      rcases (hLogged.exists_delete_iff hSound hTuple).mp
          ⟨change, hChange, hBefore, hDelete⟩ with
        ⟨deleted, hDeleted, hEarlier⟩
      have hVisible := hLater deleted hDeleted
      omega

end Tables

------------------------------------------------------------
-- Stores
------------------------------------------------------------

namespace Store

open Tables

variable {store : Store}

theorem Reachable.logged
    (hReachable : store.Reachable) :
    store.tables.Sound ∧ store.tables.Logged := by
  refine hReachable.keeps
    (fun tables => tables.Sound ∧ tables.Logged) ?_ ?_ ?_
  · intro store hBlank
    refine ⟨hBlank.steady.sound, ?_⟩
    constructor
    · simp [hBlank.tuples]
    · simp [hBlank.tuples]
    · simp [hBlank.changes]
  · intro before after hSame hBefore
    rcases hBefore with ⟨hSound, hLogged⟩
    refine ⟨hSame.sound hSound, ?_⟩
    have hTxids :
        ∀ operation id,
          after.txidsOf operation id =
            before.txidsOf operation id := by
      intro operation id
      unfold txidsOf
      rw [hSame.changes]
    constructor
    · intro tuple hTuple
      rw [hSame.tuples] at hTuple
      rw [hTxids]
      exact hLogged.written tuple hTuple
    · intro tuple hTuple
      rw [hSame.tuples] at hTuple
      rw [hTxids]
      exact hLogged.deleted tuple hTuple
    · rw [hSame.changes, hSame.tuples]
      exact hLogged.referred
  · intro tables after now additions removals receipt _ _ hBatch
      hBefore
    rcases hBefore with ⟨hSound, hLogged⟩
    refine hBatch.preserves logged_kept ⟨hSound.next, ?_⟩
    exact ⟨hLogged.written, hLogged.deleted, hLogged.referred⟩

theorem Reachable.numbered
    (hReachable : store.Reachable) :
    store.tables.Numbered := by
  refine hReachable.keeps Numbered ?_ ?_ ?_
  · intro store hBlank
    constructor
    · rw [hBlank.last]
    · simp [hBlank.tuples]
    · simp [hBlank.tuples]
  · intro before after hSame hNumbered
    constructor
    · rw [hSame.last]
      exact hNumbered.last
    · rw [hSame.tuples]
      exact hNumbered.positive
    · rw [hSame.tuples]
      exact hNumbered.ordered
  · intro tables after now additions removals receipt hSound
      hTimely hBatch hNumbered
    exact hNumbered.batch hSound hTimely hBatch

/- The log grows by what a batch counts, if it succeeds. -/
theorem length_changes_of_write
    {after : Store}
    {now : Int}
    {writes deletes : List TupleKey}
    {receipt : Receipt}
    (hSteady : store.Steady)
    (hRun :
      (write now writes deletes).run store =
        (.ok receipt, after)) :
    after.tables.changes.length =
      store.tables.changes.length +
        (receipt.written + receipt.deleted) := by
  rcases batch_of_write hSteady.idle hSteady.sound hRun with
    ⟨_, _, _, _, hBatch⟩
  exact hBatch.length_changes

/- Nothing but a batch adds to the log. -/
theorem changes_perform
    {event : Event}
    (hSteady : store.Steady)
    (hOther : ∀ now writes deletes,
      event ≠ .write now writes deletes) :
    (store.perform event).tables.changes =
      store.tables.changes := by
  rcases perform_cases event hSteady.idle with
    ⟨now, writes, deletes, _, hWrite, _⟩ | ⟨_, hSame⟩
  · exact absurd hWrite (hOther now writes deletes)
  · exact hSame.changes

/-
  The log of changes and the tuples of a store agree. As long
  as there are numbers for further transactions, each deletion
  has a greater one than the creation, and the log up to any
  transaction leads to the snapshot at it.
-/
theorem changes_agree
    (hReachable : store.Reachable) :
    let tables := store.tables
    tables.Sound ∧ tables.Logged ∧
      (∀ tuple ∈ tables.tuples, ∀ deleted ∈ tuple.deleted,
        deleted ≤ tables.last) ∧
        (tables.last < Numeral.largestInt64 →
          (∀ tuple ∈ tables.tuples, ∀ deleted ∈ tuple.deleted,
            tuple.created < deleted) ∧
            ∀ txid entries, tables.Arranges txid entries →
              Change.replay entries = tables.visibleIds txid) := by
  rcases hReachable.logged with ⟨hSound, hLogged⟩
  have hTimely := hReachable.steady.timely
  have hNumbered := hReachable.numbered
  refine ⟨hSound, hLogged, hTimely.deleted, ?_⟩
  intro hRoom
  have hOrdered :
      ∀ tuple ∈ store.tables.tuples,
        ∀ deleted ∈ tuple.deleted,
          tuple.created < deleted := by
    intro tuple hTuple deleted hDeleted
    have hBefore := hTimely.deleted tuple hTuple deleted hDeleted
    rcases hNumbered.ordered tuple hTuple deleted hDeleted with
      hLater | hFull
    · exact hLater
    · omega
  refine ⟨hOrdered, ?_⟩
  intro txid entries hArranges
  exact hLogged.replay_eq hSound hOrdered hArranges

end Store

namespace Sharing

/- The store after the batch that rewrites the tuples. -/
def rewritten : Store :=
  shared.perform rewrite

theorem rewritten_reachable : rewritten.Reachable :=
  shared_reachable.event rewrite

/- The entries of the first transaction. -/
def entries : List Change :=
  rewritten.tables.changes.filter fun change => change.txid ≤ 1

/- The first transaction only wrote the user's tuple. -/
theorem replay_entries :
    rewritten.Reachable ∧
      rewritten.tables.last = 2 ∧
      rewritten.tables.Logged ∧
      rewritten.tables.Arranges 1 entries ∧
      Change.replay entries = rewritten.tables.visibleIds 1 := by
  rcases Store.changes_agree rewritten_reachable with
    ⟨_, hLogged, _, hRoom⟩
  have hLast : rewritten.tables.last = 2 := by decide +kernel
  have hArranges : rewritten.tables.Arranges 1 entries :=
    ⟨List.Perm.refl _, by decide +kernel⟩
  have hReplay :=
    (hRoom (by rw [hLast]; decide)).2 1 entries hArranges
  exact ⟨rewritten_reachable, hLast, hLogged, hArranges, hReplay⟩

end Sharing

end Rebac
