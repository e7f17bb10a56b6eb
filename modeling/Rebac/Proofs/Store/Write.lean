import Rebac.Proofs.Store.Action
import Rebac.Store.Write

/-
  This file proves what writing a batch does to the tables: a
  batch that fails leaves the database as it was, and one that
  changes no tuple only takes the number of a transaction. No
  tuple ever names a transaction after the last one, so that
  the latest snapshot holds the live tuples.

  Key definitions include:
    * `Tables.Timely`
    * `Store.BatchInvariant`
    * `Store.batch`

  Key theorems include:
    * `Tables.Timely.visibleAt_iff`
    * `Store.total_preserves`
    * `Store.batch_saved`
    * `Store.write_error`
    * `Store.write_idle`
    * `Store.write_steady`
-/

namespace Rebac

------------------------------------------------------------
-- Transactions of Tuples
------------------------------------------------------------

namespace Tables

/- No tuple names a transaction after the last one. -/
structure Timely (tables : Tables) : Prop where
  last : tables.last ≤ Numeral.largestInt64
  created : ∀ tuple ∈ tables.tuples,
    tuple.created ≤ tables.last
  deleted : ∀ tuple ∈ tables.tuples,
    ∀ txid ∈ tuple.deleted, txid ≤ tables.last

/- The latest snapshot holds the live tuples. -/
theorem Timely.visibleAt_iff
    {tables : Tables}
    {tuple : StoredTuple}
    (hTimely : tables.Timely)
    (hTuple : tuple ∈ tables.tuples) :
    tuple.VisibleAt tables.last ↔ tuple.Live := by
  rw [StoredTuple.VisibleAt, StoredTuple.Live]
  constructor
  · rintro ⟨_, hLater⟩
    rw [Option.eq_none_iff_forall_not_mem]
    intro txid hDeleted
    have hBefore := hTimely.deleted tuple hTuple txid hDeleted
    have hAfter := hLater txid hDeleted
    omega
  · intro hLive
    refine ⟨hTimely.created tuple hTuple, ?_⟩
    intro txid hDeleted
    rw [hLive] at hDeleted
    cases hDeleted

end Tables

namespace Store

------------------------------------------------------------
-- Statements
------------------------------------------------------------

/- What none of the statements of a batch makes false. -/
structure BatchInvariant
    (txid : Int)
    (Holds : Store → Prop) : Prop where
  draw : ∀ store ids, Holds store →
    Holds { store with ids := ids }
  log : ∀ entry,
    (change fun tables =>
      { tables with
        changes := tables.changes ++ [entry] }).Preserves Holds
  mark : ∀ id,
    (change fun tables =>
      { tables with
        tuples := tables.tuples.map fun tuple =>
          if tuple.id = id then
            { tuple with deleted := some txid }
          else
            tuple }).Preserves Holds
  insert : ∀ id parts time,
    (change fun tables =>
      { tables with
        tuples := tables.tuples ++
          [{ id := id
             parts := parts
             created := txid
             deleted := none
             time := time }] }).Preserves Holds

variable {Holds : Store → Prop}
variable {txid now : Int}

namespace BatchInvariant

theorem logChange
    (hBatch : BatchInvariant txid Holds)
    (operation : Operation)
    (tuple : Bytes) :
    (logChange operation tuple txid now).Preserves Holds := by
  refine (Action.Preserves.query _).bind fun _ => ?_
  refine (Action.Preserves.drawId hBatch.draw).bind fun _ => ?_
  refine (Action.Preserves.query _).bind fun _ => ?_
  refine (Action.Preserves.query _).bind fun _ => ?_
  exact hBatch.log _

theorem deleteTuple
    (hBatch : BatchInvariant txid Holds)
    (parts : TupleKey.Parts) :
    (deleteTuple txid now parts).Preserves Holds := by
  refine (Action.Preserves.query _).bind fun _ => ?_
  refine (Action.Preserves.query _).bind fun live => ?_
  refine Action.Preserves.bind ?_ fun _ =>
    Action.Preserves.pure _
  refine Action.Preserves.forM (fun tuple => ?_) live
  refine (Action.Preserves.query _).bind fun _ => ?_
  refine Action.Preserves.bind (hBatch.mark _) fun _ => ?_
  exact hBatch.logChange .delete tuple.id

theorem insertTuple
    (hBatch : BatchInvariant txid Holds)
    (parts : TupleKey.Parts) :
    (insertTuple txid now parts).Preserves Holds := by
  refine (Action.Preserves.drawId hBatch.draw).bind fun id => ?_
  refine (Action.Preserves.query _).bind fun _ => ?_
  refine (Action.Preserves.query _).bind fun _ => ?_
  refine Action.Preserves.bind (hBatch.insert _ _ _) fun _ => ?_
  exact hBatch.logChange .write id

theorem writeTuple
    (hBatch : BatchInvariant txid Holds)
    (parts : TupleKey.Parts) :
    (writeTuple txid now parts).Preserves Holds := by
  refine (Action.Preserves.query _).bind fun _ => ?_
  refine (Action.Preserves.query _).bind fun live => ?_
  split
  · exact (hBatch.insertTuple parts).bind fun _ =>
      Action.Preserves.pure _
  · exact Action.Preserves.pure _

end BatchInvariant

------------------------------------------------------------
-- Batches
------------------------------------------------------------

variable {Element : Type}
variable {action : Element → Action Nat}

theorem total_preserves
    (hAction : ∀ element, (action element).Preserves Holds)
    (elements : List Element) :
    (total action elements).Preserves Holds := by
  induction elements with
  | nil => exact Action.Preserves.pure _
  | cons element others hOthers =>
      refine (hAction element).bind fun _ => ?_
      refine hOthers.bind fun _ => ?_
      exact Action.Preserves.pure _

/- An action that changes nothing when it counts nothing. -/
def Idle (action : Action Nat) : Prop :=
  ∀ store after,
    action.run store = (.ok 0, after) → after = store

/- A sum is zero only if all of its terms are. -/
theorem total_idle
    (hAction : ∀ element, Idle (action element))
    (elements : List Element) :
    Idle (total action elements) := by
  induction elements with
  | nil =>
      intro store after hRun
      exact (Prod.mk.inj hRun).2.symm
  | cons element others hOthers =>
      intro store after hRun
      rcases Action.exists_of_run_bind hRun with
        ⟨first, middle, hFirst, hRest⟩
      rcases Action.exists_of_run_bind hRest with
        ⟨rest, last, hLast, hSum⟩
      rcases Prod.mk.inj hSum with ⟨hCount, hAfter⟩
      have hZero : first + rest = 0 := Except.ok.inj hCount
      rcases Nat.add_eq_zero_iff.mp hZero with ⟨rfl, rfl⟩
      rw [← hAfter, hOthers middle last hLast]
      exact hAction element store middle hFirst

/- Deleting a tuple that is not there does nothing. -/
theorem deleteTuple_idle (parts : TupleKey.Parts) :
    Idle (deleteTuple txid now parts) := by
  intro store after hRun
  rcases Action.exists_of_run_bind hRun with
    ⟨_, _, hRequire, hRest⟩
  rcases Action.eq_of_run_query hRequire with ⟨_, rfl⟩
  rcases Action.exists_of_run_bind hRest with
    ⟨live, _, hLive, hMarked⟩
  rcases Action.eq_of_run_query hLive with ⟨_, rfl⟩
  rcases Action.exists_of_run_bind hMarked with
    ⟨_, marked, hMark, hCount⟩
  rcases Prod.mk.inj hCount with ⟨hLength, rfl⟩
  have hNone : live = [] :=
    List.eq_nil_of_length_eq_zero (Except.ok.inj hLength)
  rw [hNone] at hMark
  exact (Prod.mk.inj hMark).2.symm

/- Writing a tuple that is there does nothing. -/
theorem writeTuple_idle (parts : TupleKey.Parts) :
    Idle (writeTuple txid now parts) := by
  intro store after hRun
  rcases Action.exists_of_run_bind hRun with
    ⟨_, _, hRequire, hRest⟩
  rcases Action.eq_of_run_query hRequire with ⟨_, rfl⟩
  rcases Action.exists_of_run_bind hRest with
    ⟨live, _, hLive, hWritten⟩
  rcases Action.eq_of_run_query hLive with ⟨_, rfl⟩
  split at hWritten
  · rcases Action.exists_of_run_bind hWritten with
      ⟨_, _, _, hCount⟩
    cases Except.ok.inj (Prod.mk.inj hCount).1
  · exact (Prod.mk.inj hWritten).2.symm

/- Changes the tuples in a transaction with a number. -/
def alter
    (txid now : Int)
    (additions removals : List TupleKey.Parts) :
    Action Receipt := do
  let deleted ← total (deleteTuple txid now) removals
  let written ← total (writeTuple txid now) additions
  return { txid := txid, written := written, deleted := deleted }

theorem alter_preserves
    (hBatch : BatchInvariant txid Holds)
    (additions removals : List TupleKey.Parts) :
    (alter txid now additions removals).Preserves Holds := by
  refine (total_preserves hBatch.deleteTuple _).bind fun _ => ?_
  refine (total_preserves hBatch.writeTuple _).bind fun _ => ?_
  exact Action.Preserves.pure _

/- A batch that counts no change changes nothing. -/
theorem alter_idle
    {additions removals : List TupleKey.Parts}
    {store after : Store}
    {receipt : Receipt}
    (hRun :
      (alter txid now additions removals).run store =
        (.ok receipt, after))
    (hNone : receipt.written + receipt.deleted = 0) :
    after = store := by
  rcases Action.exists_of_run_bind hRun with
    ⟨deleted, middle, hDeleted, hRest⟩
  rcases Action.exists_of_run_bind hRest with
    ⟨written, last, hWritten, hReceipt⟩
  rcases Prod.mk.inj hReceipt with ⟨hCounts, rfl⟩
  cases Except.ok.inj hCounts
  rcases Nat.add_eq_zero_iff.mp hNone with ⟨rfl, rfl⟩
  rw [total_idle writeTuple_idle additions middle last hWritten]
  exact total_idle deleteTuple_idle removals store middle hDeleted

/- The store when the next transaction has its number. -/
def advanced (store : Store) : Store :=
  { store with
    database := store.database.change fun tables =>
      { tables with last := following tables.last } }

/- The next number is taken, or nothing happens. -/
theorem nextTxid_cases (store : Store) :
    (∃ error, nextTxid.run store = (.error error, store)) ∨
      nextTxid.run store =
        (.ok (following store.tables.last), store.advanced) := by
  rw [nextTxid, Action.run_bind]
  split
  · next error middle hRequire =>
      cases (Prod.mk.inj hRequire).2
      exact .inl ⟨error, rfl⟩
  · next middle hRequire =>
      cases (Prod.mk.inj hRequire).2
      rw [Action.run_bind]
      split
      · next error middle hPermit =>
          cases (Prod.mk.inj hPermit).2
          exact .inl ⟨error, rfl⟩
      · next middle hPermit =>
          cases (Prod.mk.inj hPermit).2
          exact .inr rfl

/- A batch does not end the transaction that it is in. -/
theorem batchInvariant_saved (before : Tables) :
    BatchInvariant txid fun store =>
      store.database.saved = some before where
  draw _ _ hSaved := hSaved
  log _ _ hSaved := hSaved
  mark _ _ hSaved := hSaved
  insert _ _ _ _ hSaved := hSaved

/- Changes the tuples in the next transaction. -/
def batch
    (now : Int)
    (additions removals : List TupleKey.Parts) :
    Action Receipt := do
  let txid ← nextTxid
  alter txid now additions removals

/- A batch has no number, or it changes the tuples. -/
theorem batch_cases
    (additions removals : List TupleKey.Parts)
    (store : Store) :
    (∃ error,
      (batch now additions removals).run store =
        (.error error, store)) ∨
      (batch now additions removals).run store =
        (alter (following store.tables.last) now additions
          removals).run store.advanced := by
  rw [batch, Action.run_bind]
  rcases nextTxid_cases store with ⟨error, hError⟩ | hNext
  · rw [hError]
    exact .inl ⟨error, rfl⟩
  · rw [hNext]
    exact .inr rfl

theorem batch_saved
    (additions removals : List TupleKey.Parts)
    (store : Store) :
    ((batch now additions removals).run
        store.begun).2.database.saved =
      some store.tables := by
  rcases batch_cases additions removals store.begun with
    ⟨error, hError⟩ | hAlter
  · rw [hError]
    rfl
  · rw [hAlter]
    exact alter_preserves (batchInvariant_saved store.tables)
      additions removals store.begun.advanced rfl

/-
  A batch fails and leaves the database as it was, or it has
  changed the tuples in the next transaction.
-/
theorem write_cases
    {store : Store}
    (now : Int)
    (writes deletes : List TupleKey)
    (hIdle : store.database.saved = none) :
    (∃ error after,
      (write now writes deletes).run store =
          (.error error, after) ∧
        after.database = store.database) ∨
      ∃ additions removals receipt inner,
        checkKeys writes = .ok additions ∧
          checkKeys deletes = .ok removals ∧
          (alter (following store.tables.last) now additions
              removals).run store.begun.advanced =
            (.ok receipt, inner) ∧
          (write now writes deletes).run store =
            (.ok receipt,
              { inner with
                database :=
                  { inner.database with saved := none } }) := by
  rw [write, Action.run_bind]
  split
  · next error middle hWrites =>
      cases (Prod.mk.inj hWrites).2
      exact .inl ⟨error, store, rfl, rfl⟩
  · next additions middle hWrites =>
      rcases Action.eq_of_run_query hWrites with
        ⟨hAdditions, rfl⟩
      rw [Action.run_bind]
      split
      · next error middle hDeletes =>
          cases (Prod.mk.inj hDeletes).2
          exact .inl ⟨error, _, rfl, rfl⟩
      · next removals middle hDeletes =>
          rcases Action.eq_of_run_query hDeletes with
            ⟨hRemovals, rfl⟩
          rcases transaction_cases hIdle
              (batch_saved additions removals middle) with
            ⟨error, after, hRun, hSame⟩ |
              ⟨receipt, inner, hRun, hWritten⟩
          · exact .inl ⟨error, after, hRun, hSame⟩
          · refine .inr ⟨additions, removals, receipt, inner,
              hAdditions, hRemovals, ?_, hWritten⟩
            rcases batch_cases additions removals
                middle.begun with ⟨error, hError⟩ | hAlter
            · rw [hRun] at hError
              cases (Prod.mk.inj hError).1
            · rw [hRun] at hAlter
              exact hAlter.symm

/- A batch that fails leaves the database as it was. -/
theorem write_error
    {writes deletes : List TupleKey}
    {store after : Store}
    {error : StoreError}
    (hIdle : store.database.saved = none)
    (hRun :
      (write now writes deletes).run store =
        (.error error, after)) :
    after.database = store.database := by
  rcases write_cases now writes deletes hIdle with
    ⟨_, failed, hFailed, hSame⟩ | ⟨_, _, _, _, _, _, _, hWritten⟩
  · rw [hRun] at hFailed
    rw [(Prod.mk.inj hFailed).2]
    exact hSame
  · rw [hRun] at hWritten
    cases (Prod.mk.inj hWritten).1

/- A batch that counts no change only takes a number. -/
theorem write_idle
    {writes deletes : List TupleKey}
    {store after : Store}
    {receipt : Receipt}
    (hIdle : store.database.saved = none)
    (hRun :
      (write now writes deletes).run store =
        (.ok receipt, after))
    (hNone : receipt.written + receipt.deleted = 0) :
    after.tables =
      { store.tables with last := following store.tables.last } := by
  rcases write_cases now writes deletes hIdle with
    ⟨_, _, hFailed, _⟩ | ⟨_, _, _, inner, _, _, hAlter, hWritten⟩
  · rw [hRun] at hFailed
    cases (Prod.mk.inj hFailed).1
  · rw [hRun] at hWritten
    rcases Prod.mk.inj hWritten with ⟨hReceipt, rfl⟩
    cases Except.ok.inj hReceipt
    rw [alter_idle hAlter hNone]
    rfl

------------------------------------------------------------
-- Times
------------------------------------------------------------

/- The statements of a batch do not touch the set of tables. -/
theorem batchInvariant_missing (missing : List TableName) :
    BatchInvariant txid fun store =>
      store.tables.missing = missing where
  draw _ _ hMissing := hMissing
  log _ _ hMissing := hMissing
  mark _ _ hMissing := hMissing
  insert _ _ _ _ hMissing := hMissing

/- The statements of a batch name its transaction, the last. -/
theorem batchInvariant_timely :
    BatchInvariant txid fun store =>
      store.tables.last = txid ∧ store.tables.Timely where
  draw _ _ hTimely := hTimely
  log _ _ hTimely :=
    ⟨hTimely.1, hTimely.2.last, hTimely.2.created,
      hTimely.2.deleted⟩
  mark id := by
    rintro store ⟨hLast, hTimely⟩
    refine ⟨hLast, hTimely.last, ?_, ?_⟩
    · intro marked hMarked
      rcases List.mem_map.mp hMarked with ⟨tuple, hTuple, rfl⟩
      split <;> exact hTimely.created tuple hTuple
    · intro marked hMarked
      rcases List.mem_map.mp hMarked with ⟨tuple, hTuple, rfl⟩
      split
      · intro other hDeleted
        cases hDeleted
        exact Int.le_of_eq hLast.symm
      · exact hTimely.deleted tuple hTuple
  insert id parts time := by
    rintro store ⟨hLast, hTimely⟩
    refine ⟨hLast, hTimely.last, ?_, ?_⟩
    · intro tuple hTuple
      rcases List.mem_append.mp hTuple with hOld | hNew
      · exact hTimely.created tuple hOld
      · cases List.mem_singleton.mp hNew
        exact Int.le_of_eq hLast.symm
    · intro tuple hTuple
      rcases List.mem_append.mp hTuple with hOld | hNew
      · exact hTimely.deleted tuple hOld
      · cases List.mem_singleton.mp hNew
        intro _ hDeleted
        cases hDeleted

theorem Timely.advanced
    {store : Store}
    (hTimely : store.tables.Timely) :
    store.advanced.tables.Timely := by
  have hLast := hTimely.last
  have hLater :
      store.tables.last ≤ following store.tables.last := by
    rw [following]
    omega
  refine ⟨Int.min_le_right _ _, ?_, ?_⟩
  · intro tuple hTuple
    exact Int.le_trans (hTimely.created tuple hTuple) hLater
  · intro tuple hTuple txid hDeleted
    exact Int.le_trans
      (hTimely.deleted tuple hTuple txid hDeleted) hLater

/-
  Whatever becomes of a batch, no transaction is left open,
  the tables are the same ones, and no tuple names a
  transaction after the last one.
-/
theorem write_steady
    {writes deletes : List TupleKey}
    {store after : Store}
    {result : Except StoreError Receipt}
    (hIdle : store.database.saved = none)
    (hTimely : store.tables.Timely)
    (hRun :
      (write now writes deletes).run store = (result, after)) :
    after.database.saved = none ∧
      after.tables.missing = store.tables.missing ∧
        after.tables.Timely := by
  rcases write_cases now writes deletes hIdle with
    ⟨_, failed, hFailed, hSame⟩ |
      ⟨additions, removals, _, inner, _, _, hAlter, hWritten⟩
  · rw [hRun] at hFailed
    rw [(Prod.mk.inj hFailed).2, tables, hSame]
    exact ⟨hIdle, rfl, hTimely⟩
  · rw [hRun] at hWritten
    rw [(Prod.mk.inj hWritten).2]
    have hMissing :
        inner.tables.missing = store.tables.missing :=
      (alter_preserves (batchInvariant_missing _) additions
        removals).of_run hAlter rfl
    have hDated :=
      (alter_preserves batchInvariant_timely additions
        removals).of_run hAlter ⟨rfl, Timely.advanced hTimely⟩
    exact ⟨rfl, hMissing, hDated.2⟩

end Store

end Rebac
