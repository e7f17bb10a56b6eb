import Rebac.Proofs.Store.Rows
import Rebac.Proofs.Store.Write

/-
  This file proves that the statements of a batch that
  succeeds do to the rows of the tables what a batch is
  defined to do.

  Key theorems include:
    * `Store.deletes_of_run`
    * `Store.writes_of_run`
    * `Store.batch_of_run`
    * `Store.batch_of_write`
-/

namespace Rebac

namespace Store

open Tables

variable {txid now : Int}
variable {store after : Store}

------------------------------------------------------------
-- Statements
------------------------------------------------------------

/- An id that is not refused is the id of no row. -/
theorem fresh_of_run
    {Row : Type}
    (rows : Tables → List Row)
    (idOf : Row → Bytes)
    {id : Bytes}
    {error : StoreError}
    (hRun :
      (query fun tables =>
        if (rows tables).any fun row => idOf row = id then
          .error error
        else
          .ok ()).run store = (.ok (), after)) :
    id ∉ (rows store.tables).map idOf ∧ after = store := by
  rcases Action.eq_of_run_query hRun with ⟨hFresh, hSame⟩
  refine ⟨?_, hSame⟩
  intro hMem
  rcases List.mem_map.mp hMem with ⟨row, hRow, hId⟩
  have hRepeated :
      ((rows store.tables).any fun row => idOf row = id) =
        true := by
    rw [List.any_eq_true]
    exact ⟨row, hRow, decide_eq_true hId⟩
  rw [if_pos hRepeated] at hFresh
  cases hFresh

/- Drawing an id does not touch the tables. -/
theorem tables_of_draw
    {id : Bytes}
    (hRun : (drawId now).run store = (.ok id, after)) :
    after.tables = store.tables := by
  rcases Prod.mk.inj hRun with ⟨_, hAfter⟩
  rw [← hAfter]
  rfl

/- A change of the tables leaves the changed tables. -/
theorem tables_of_change
    {update : Tables → Tables}
    (hRun : (change update).run store = (.ok (), after)) :
    after.tables = update store.tables := by
  rcases Prod.mk.inj hRun with ⟨_, hAfter⟩
  rw [← hAfter]
  rfl

/- An entry that was logged has an id of its own. -/
theorem logged_of_run
    {operation : Operation}
    {tuple : Bytes}
    (hRun :
      (logChange operation tuple txid now).run store =
        (.ok (), after)) :
    ∃ entry,
      entry ∉ store.tables.changes.map Change.id ∧
        after.tables =
          { store.tables with
            changes := store.tables.changes ++
              [{ id := entry
                 operation := operation
                 tuple := tuple
                 txid := txid
                 time := now }] } := by
  unfold logChange at hRun
  rcases Action.exists_of_run_bind hRun with
    ⟨_, required, hRequire, hDrawn⟩
  have hRequired := (Action.eq_of_run_query hRequire).2
  rcases Action.exists_of_run_bind hDrawn with
    ⟨entry, drawn, hDraw, hPermitted⟩
  have hTables := tables_of_draw hDraw
  rcases Action.exists_of_run_bind hPermitted with
    ⟨_, permitted, hPermit, hChecked⟩
  have hAllowed := (Action.eq_of_run_query hPermit).2
  rcases Action.exists_of_run_bind hChecked with
    ⟨_, checked, hCheck, hChanged⟩
  rcases fresh_of_run Tables.changes Change.id hCheck with
    ⟨hFresh, hSame⟩
  have hAfter := tables_of_change hChanged
  rw [hSame, hAllowed, hTables, hRequired] at hAfter
  rw [hAllowed, hTables, hRequired] at hFresh
  exact ⟨entry, hFresh, hAfter⟩

/- A tuple that was marked as deleted is retired. -/
theorem retired_of_run
    {id : Bytes}
    (hRun : (markDeleted txid now id).run store = (.ok (), after)) :
    ∃ entry,
      entry ∉ store.tables.changes.map Change.id ∧
        after.tables = store.tables.retire txid now id entry := by
  unfold markDeleted at hRun
  rcases Action.exists_of_run_bind hRun with
    ⟨_, permitted, hPermit, hMarked⟩
  have hPermitted := (Action.eq_of_run_query hPermit).2
  rcases Action.exists_of_run_bind hMarked with
    ⟨_, marked, hMark, hLogged⟩
  have hTables := tables_of_change hMark
  rcases logged_of_run hLogged with ⟨entry, hEntry, hAfter⟩
  rw [hTables, hPermitted] at hEntry hAfter
  exact ⟨entry, hEntry, hAfter⟩

/- A tuple that was inserted is entered. -/
theorem entered_of_run
    {parts : TupleKey.Parts}
    (hRun :
      (insertTuple txid now parts).run store = (.ok (), after)) :
    ∃ id entry,
      id ∉ store.tables.tuples.map StoredTuple.id ∧
        entry ∉ store.tables.changes.map Change.id ∧
          after.tables =
            store.tables.enter txid now id entry parts := by
  unfold insertTuple at hRun
  rcases Action.exists_of_run_bind hRun with
    ⟨id, drawn, hDraw, hPermitted⟩
  have hDrawn := tables_of_draw hDraw
  rcases Action.exists_of_run_bind hPermitted with
    ⟨_, permitted, hPermit, hChecked⟩
  have hAllowed := (Action.eq_of_run_query hPermit).2
  rcases Action.exists_of_run_bind hChecked with
    ⟨_, checked, hCheck, hInserted⟩
  rcases fresh_of_run Tables.tuples StoredTuple.id hCheck with
    ⟨hFresh, hSame⟩
  rcases Action.exists_of_run_bind hInserted with
    ⟨_, inserted, hInsert, hLogged⟩
  have hTables := tables_of_change hInsert
  rcases logged_of_run hLogged with ⟨entry, hEntry, hAfter⟩
  rw [hTables, hSame, hAllowed, hDrawn] at hEntry hAfter
  rw [hAllowed, hDrawn] at hFresh
  exact ⟨id, entry, hFresh, hEntry, hAfter⟩

------------------------------------------------------------
-- Keys
------------------------------------------------------------

/- The live tuples with the parts of a key are those of it. -/
theorem liveWith_eq
    {tables : Tables}
    {parts : TupleKey.Parts}
    (hSound : tables.Sound)
    (hValid : parts.Valid) :
    tables.liveWith parts = tables.liveOf parts.key := by
  unfold liveWith liveOf
  apply List.filter_congr
  intro tuple hTuple
  have hParts :=
    (hSound.valid tuple hTuple).key_inj hValid
  apply decide_eq_decide.mpr
  exact and_congr_right fun _ => hParts.symm

/- What deleting a key does when it succeeds. -/
theorem deletes_of_run
    {parts : TupleKey.Parts}
    {count : Nat}
    (hSound : store.tables.Sound)
    (hValid : parts.Valid)
    (hRun :
      (deleteTuple txid now parts).run store =
        (.ok count, after)) :
    Deletes txid now parts store.tables count after.tables := by
  unfold deleteTuple at hRun
  rcases Action.exists_of_run_bind hRun with
    ⟨_, required, hRequire, hFound⟩
  have hRequired := (Action.eq_of_run_query hRequire).2
  rcases Action.exists_of_run_bind hFound with
    ⟨live, found, hFind, hMarked⟩
  rcases Action.eq_of_run_query hFind with ⟨hLive, hSame⟩
  rcases Action.exists_of_run_bind hMarked with
    ⟨_, marked, hMark, hCounted⟩
  rcases Prod.mk.inj hCounted with ⟨hCount, hAfter⟩
  have hLength : live.length = count := Except.ok.inj hCount
  have hTuples := Except.ok.inj hLive
  rw [hRequired] at hTuples
  rw [hSame, hRequired] at hMark
  rw [liveWith_eq hSound hValid] at hTuples
  rw [← hAfter, ← hLength, ← hTuples]
  rw [← hTuples] at hMark
  rcases hSound.live_cases parts.key with
    ⟨hNone, hAbsent⟩ | ⟨tuple, hOne, hTuple, hAlive, hKey⟩
  · rw [hNone] at hMark ⊢
    rw [← (Prod.mk.inj hMark).2]
    exact .absent hAbsent
  · rw [hOne] at hMark ⊢
    rcases Action.exists_of_run_bind hMark with
      ⟨_, retired, hRetire, hDone⟩
    rw [← (Prod.mk.inj hDone).2]
    rcases retired_of_run hRetire with
      ⟨entry, hEntry, hTables⟩
    rw [hTables]
    exact .present tuple entry hTuple hAlive hKey hEntry

/- What writing a key does when it succeeds. -/
theorem writes_of_run
    {parts : TupleKey.Parts}
    {count : Nat}
    (hSound : store.tables.Sound)
    (hValid : parts.Valid)
    (hRun :
      (writeTuple txid now parts).run store =
        (.ok count, after)) :
    Writes txid now parts store.tables count after.tables := by
  unfold writeTuple at hRun
  rcases Action.exists_of_run_bind hRun with
    ⟨_, required, hRequire, hFound⟩
  have hRequired := (Action.eq_of_run_query hRequire).2
  rcases Action.exists_of_run_bind hFound with
    ⟨live, found, hFind, hWritten⟩
  rcases Action.eq_of_run_query hFind with ⟨hLive, hSame⟩
  have hTuples := Except.ok.inj hLive
  rw [hRequired, liveWith_eq hSound hValid] at hTuples
  rw [hSame, hRequired, ← hTuples] at hWritten
  rcases hSound.live_cases parts.key with
    ⟨hNone, hAbsent⟩ | ⟨tuple, hOne, hTuple, hAlive, hKey⟩
  · rw [hNone] at hWritten
    rcases Action.exists_of_run_bind hWritten with
      ⟨_, inserted, hInsert, hCounted⟩
    rcases Prod.mk.inj hCounted with ⟨hCount, hAfter⟩
    have hOne : 1 = count := Except.ok.inj hCount
    rcases entered_of_run hInsert with
      ⟨id, entry, hId, hEntry, hTables⟩
    rw [← hAfter, ← hOne, hTables]
    exact .absent id entry hValid hAbsent hId hEntry
  · rw [hOne] at hWritten
    rcases Prod.mk.inj hWritten with ⟨hCount, hAfter⟩
    have hZero : 0 = count := Except.ok.inj hCount
    rw [← hAfter, ← hZero]
    exact .present
      (mem_liveKeys_iff.mpr ⟨tuple, hTuple, hAlive, hKey⟩)

------------------------------------------------------------
-- Lists of Keys
------------------------------------------------------------

/- What an action does for one element, it does for each. -/
theorem each_of_run
    {Element : Type}
    {Does : Element → Tables → Nat → Tables → Prop}
    {action : Element → Action Nat}
    {elements : List Element}
    {count : Nat}
    (hAction : ∀ element ∈ elements, ∀ store count after,
      store.tables.Sound →
        (action element).run store = (.ok count, after) →
          Does element store.tables count after.tables)
    (hDoes : ∀ element tables count after,
      Does element tables count after →
        tables.Sound → after.Sound)
    (hSound : store.tables.Sound)
    (hRun :
      (total action elements).run store = (.ok count, after)) :
    Each Does elements store.tables count after.tables := by
  induction elements generalizing store after count with
  | nil =>
      rcases Prod.mk.inj hRun with ⟨hCount, hAfter⟩
      have hZero : 0 = count := Except.ok.inj hCount
      rw [← hAfter, ← hZero]
      exact .nil
  | cons element others hOthers =>
      rcases Action.exists_of_run_bind hRun with
        ⟨first, middle, hFirst, hRest⟩
      rcases Action.exists_of_run_bind hRest with
        ⟨rest, last, hLast, hSum⟩
      rcases Prod.mk.inj hSum with ⟨hCount, hAfter⟩
      have hTotal : first + rest = count := Except.ok.inj hCount
      have hDone :=
        hAction element List.mem_cons_self store first middle
          hSound hFirst
      have hMiddle := hDoes _ _ _ _ hDone hSound
      rw [← hAfter, ← hTotal]
      exact .cons hDone
        (hOthers
          (fun other hOther =>
            hAction other (List.mem_cons_of_mem _ hOther))
          hMiddle hLast)

/- Keys that are read have the parts of these keys. -/
theorem parts_of_checkKeys
    {keys : List TupleKey}
    {list : List TupleKey.Parts}
    (hKeys : checkKeys keys = .ok list) :
    list.map TupleKey.Parts.key = keys ∧
      ∀ parts ∈ list, parts.Valid := by
  induction keys generalizing list with
  | nil =>
      cases hKeys
      exact ⟨rfl, fun _ hParts => nomatch hParts⟩
  | cons key others hOthers =>
      unfold checkKeys at hKeys
      split at hKeys
      · cases hKeys
      · cases hKeys
      · next parts rest hCheck hRest =>
          cases hKeys
          rcases hOthers hRest with ⟨hMap, hValid⟩
          have hKey := TupleKey.key_of_check hCheck
          refine ⟨by rw [List.map_cons, hKey, hMap], ?_⟩
          intro other hOther
          rcases List.mem_cons.mp hOther with rfl | hOld
          · exact .of_check hCheck
          · exact hValid other hOld

/- What a batch does to the tables when it succeeds. -/
theorem batch_of_run
    {additions removals : List TupleKey.Parts}
    {receipt : Receipt}
    (hSound : store.tables.Sound)
    (hAdditions : ∀ parts ∈ additions, parts.Valid)
    (hRemovals : ∀ parts ∈ removals, parts.Valid)
    (hRun :
      (alter txid now additions removals).run store =
        (.ok receipt, after)) :
    Batch txid now additions removals store.tables receipt
      after.tables := by
  unfold alter at hRun
  rcases Action.exists_of_run_bind hRun with
    ⟨deleted, middle, hDeleted, hRest⟩
  rcases Action.exists_of_run_bind hRest with
    ⟨written, last, hWritten, hReceipt⟩
  rcases Prod.mk.inj hReceipt with ⟨hCounts, hAfter⟩
  have hDeletes :=
    each_of_run
      (fun parts hParts _ _ _ hSound =>
        deletes_of_run hSound (hRemovals parts hParts))
      (fun _ _ _ _ hDeletes => sound_kept.deletes hDeletes)
      hSound hDeleted
  have hMiddle : middle.tables.Sound :=
    hDeletes.preserves
      (fun _ _ _ _ hDeletes => sound_kept.deletes hDeletes)
      hSound
  have hWrites :=
    each_of_run
      (fun parts hParts _ _ _ hSound =>
        writes_of_run hSound (hAdditions parts hParts))
      (fun _ _ _ _ hWrites => sound_kept.writes hWrites)
      hMiddle hWritten
  cases Except.ok.inj hCounts
  rw [← hAfter]
  exact ⟨rfl, middle.tables, hDeletes, hWrites⟩

/-
  A batch that succeeds has the next number, and deletes and
  writes its keys under that number.
-/
theorem batch_of_write
    {writes deletes : List TupleKey}
    {receipt : Receipt}
    (hIdle : store.database.saved = none)
    (hSound : store.tables.Sound)
    (hRun :
      (write now writes deletes).run store =
        (.ok receipt, after)) :
    ∃ additions removals,
      additions.map TupleKey.Parts.key = writes ∧
        removals.map TupleKey.Parts.key = deletes ∧
          Batch (following store.tables.last) now additions
            removals store.tables.next receipt after.tables := by
  rcases write_cases now writes deletes hIdle with
    ⟨_, _, hFailed, _⟩ |
      ⟨additions, removals, _, inner, hAdditions, hRemovals,
        hAlter, hWritten⟩
  · rw [hRun] at hFailed
    cases (Prod.mk.inj hFailed).1
  · rw [hRun] at hWritten
    rcases Prod.mk.inj hWritten with ⟨hReceipt, hAfter⟩
    cases Except.ok.inj hReceipt
    rcases parts_of_checkKeys hAdditions with
      ⟨hWrites, hWritable⟩
    rcases parts_of_checkKeys hRemovals with
      ⟨hDeletes, hDeletable⟩
    have hNext : store.begun.advanced.tables.Sound := hSound.next
    have hBatch :=
      batch_of_run hNext hWritable hDeletable hAlter
    rw [hAfter]
    exact ⟨additions, removals, hWrites, hDeletes, hBatch⟩

end Store

end Rebac
