import Rebac.Proofs.Store.Query
import Rebac.Proofs.Store.Effect

/-
  This file proves that a snapshot holds the tuples as its
  transaction left them, whatever has been written since: to
  read a snapshot is to read the live tuples of that time.

  Key definitions include:
    * `StoredTuple.asOf`
    * `Tables.tuplesAt`
    * `Tables.past`
    * `Tables.Recalls`
    * `Store.LeftBy`

  Key theorems include:
    * `Tables.find_snapshot`
    * `Tables.has_snapshot`
    * `Tables.objectIds_snapshot`
    * `Tables.recalls_of_tuplesAt`
    * `Tables.tuplesAt_kept`
    * `Store.tuplesAt_run`
    * `Store.exists_leftBy`
-/

namespace Rebac

------------------------------------------------------------
-- Tuples
------------------------------------------------------------

namespace StoredTuple

/- A tuple apart from what may delete it later. -/
def undeleted (tuple : StoredTuple) : StoredTuple :=
  { tuple with deleted := none }

/- A tuple as a transaction left it. -/
def asOf (txid : Int) (tuple : StoredTuple) : StoredTuple :=
  { tuple with
    deleted := tuple.deleted.filter fun deleted => deleted ≤ txid }

theorem asOf_live_iff
    {txid : Int}
    {tuple : StoredTuple} :
    (tuple.asOf txid).Live ↔
      ∀ deleted ∈ tuple.deleted, txid < deleted := by
  cases hDeleted : tuple.deleted with
  | none => simp [Live, asOf, hDeleted]
  | some deleted => simp [Live, asOf, hDeleted]

/- A tuple of a snapshot was created, and was live. -/
theorem visibleAt_iff
    {txid : Int}
    {tuple : StoredTuple} :
    tuple.VisibleAt txid ↔
      tuple.created ≤ txid ∧ (tuple.asOf txid).Live := by
  rw [asOf_live_iff]
  rfl

/- Live tuples show no deletion. -/
theorem asOf_eq_undeleted
    {txid : Int}
    {tuple : StoredTuple}
    (hLive : (tuple.asOf txid).Live) :
    tuple.asOf txid = tuple.undeleted := by
  have hNone :
      tuple.deleted.filter (fun deleted => deleted ≤ txid) =
        none := hLive
  unfold asOf undeleted
  rw [hNone]

/- A later deletion does not show. -/
theorem asOf_delete
    {txid deleted : Int}
    {tuple : StoredTuple}
    (hLive : tuple.Live)
    (hLater : txid < deleted) :
    asOf txid { tuple with deleted := some deleted } =
      asOf txid tuple := by
  have hNone : tuple.deleted = none := hLive
  simp [asOf, hNone, hLater]

/- Nothing after the last transaction is to be left out. -/
theorem asOf_eq_self
    {txid : Int}
    {tuple : StoredTuple}
    (hDeleted : ∀ deleted ∈ tuple.deleted, deleted ≤ txid) :
    tuple.asOf txid = tuple := by
  have hKept :
      tuple.deleted.filter (fun deleted => deleted ≤ txid) =
        tuple.deleted := by
    cases hTuple : tuple.deleted with
    | none => rfl
    | some deleted =>
        have hBefore := hDeleted deleted hTuple
        simp [Option.filter, hBefore]
  unfold asOf
  rw [hKept]

end StoredTuple

namespace Tables

open StoredTuple (asOf undeleted)

variable {tables : Tables}
variable {txid : Int}

/- The tuples as a transaction left them. -/
def tuplesAt
    (txid : Int)
    (tables : Tables) : List StoredTuple :=
  (tables.tuples.filter fun tuple => tuple.created ≤ txid).map
    (asOf txid)

/- The tables with the tuples as a transaction left them. -/
def past (txid : Int) (tables : Tables) : Tables :=
  { tables with tuples := tables.tuplesAt txid }

/- The last transaction left the tuples that are there. -/
theorem Timely.tuplesAt_last
    (hTimely : tables.Timely) :
    tables.tuplesAt tables.last = tables.tuples := by
  have hCreated :
      tables.tuples.filter
          (fun tuple => tuple.created ≤ tables.last) =
        tables.tuples := by
    rw [List.filter_eq_self]
    intro tuple hTuple
    exact decide_eq_true (hTimely.created tuple hTuple)
  have hSame :
      ∀ tuple ∈ tables.tuples, asOf tables.last tuple = tuple :=
    fun tuple hTuple =>
      StoredTuple.asOf_eq_self (hTimely.deleted tuple hTuple)
  unfold tuplesAt
  rw [hCreated, List.map_congr_left hSame, List.map_id']

/-
  The tuples of a snapshot that fit are the live ones of its
  time that fit, if deletions do not matter for that.
-/
theorem filter_tuplesAt
    (tables : Tables)
    (txid : Int)
    (fits : StoredTuple → Prop)
    [DecidablePred fits]
    (hFits : ∀ tuple, fits (asOf txid tuple) ↔ fits tuple) :
    (tables.tuplesAt txid).filter
        (fun tuple => fits tuple ∧ tuple.Live) =
      (tables.tuples.filter fun tuple =>
        fits tuple ∧ tuple.VisibleAt txid).map undeleted := by
  unfold tuplesAt
  rw [List.filter_map, List.filter_filter]
  have hFilter :
      tables.tuples.filter (fun tuple =>
          ((fun row => decide (fits row ∧ row.Live)) ∘ asOf txid)
              tuple &&
            decide (tuple.created ≤ txid)) =
        tables.tuples.filter fun tuple =>
          fits tuple ∧ tuple.VisibleAt txid := by
    apply List.filter_congr
    intro tuple _
    rw [Function.comp_apply, ← Bool.decide_and]
    apply decide_eq_decide.mpr
    rw [hFits, StoredTuple.visibleAt_iff, and_assoc]
    exact and_congr_right fun _ => and_comm
  rw [hFilter]
  apply List.map_congr_left
  intro tuple hTuple
  have hShown := decide_eq_true_iff.mp (List.mem_filter.mp hTuple).2
  exact StoredTuple.asOf_eq_undeleted
    (StoredTuple.visibleAt_iff.mp hShown.2).2

end Tables

------------------------------------------------------------
-- Reads
------------------------------------------------------------

/- A part of a list is taken the same way of every list. -/
theorem Window.map_apply
    {Row Shown : Type}
    (view : Row → Shown)
    (window : Window)
    (rows : List Row) :
    (window.apply rows).map view =
      window.apply (rows.map view) := by
  unfold Window.apply Window.limited
  split
  · rfl
  · split
    · rw [List.map_drop]
    · rw [List.map_take, List.map_drop]

namespace TupleFilter

/- Whether a tuple is what a filter asks for, shown or not. -/
def Fits (filter : TupleFilter) (tuple : StoredTuple) : Prop :=
  let parts := tuple.parts
  agrees filter.userType parts.user.object.type ∧
    agrees filter.userId parts.user.object.id ∧
    agrees filter.userRelation (parts.user.relation.getD []) ∧
    agrees filter.relation parts.relation ∧
    agrees filter.objectType parts.object.type ∧
    agrees filter.objectId parts.object.id

instance (filter : TupleFilter) (tuple : StoredTuple) :
    Decidable (filter.Fits tuple) := by
  unfold Fits
  infer_instance

theorem admits_iff
    {filter : TupleFilter}
    {visibility : Visibility}
    {tuple : StoredTuple} :
    { filter with visibility := visibility }.Admits tuple ↔
      filter.Fits tuple ∧ visibility.Shows tuple := by
  unfold Admits Fits
  simp only [and_assoc]

end TupleFilter

namespace Tables

variable {tables : Tables}
variable {txid : Int}

/-
  A lookup in a snapshot finds, in the same order, what the
  same lookup among the live tuples found at its time.
-/
theorem find_snapshot
    (tables : Tables)
    (txid : Int)
    (filter : TupleFilter) :
    (tables.find
      { filter with visibility := .snapshot txid }).map
        (List.map StoredTuple.undeleted) =
      (tables.past txid).find
        { filter with visibility := .live } := by
  unfold find
  have hRequire :
      (tables.past txid).require .tuples =
        tables.require .tuples := rfl
  rw [hRequire]
  cases tables.require .tuples with
  | error error => rfl
  | ok present =>
      have hOrder :
          ∀ first ∈ tables.tuples.filter fun tuple =>
              filter.Fits tuple ∧ tuple.VisibleAt txid,
            ∀ second ∈ tables.tuples.filter fun tuple =>
                filter.Fits tuple ∧ tuple.VisibleAt txid,
              first.precedes second =
                first.undeleted.precedes second.undeleted :=
        fun _ _ _ _ => rfl
      have hTuples :=
        filter_tuplesAt tables txid filter.Fits fun _ => Iff.rfl
      simp only [TupleFilter.admits_iff, Except.map]
      congr 1
      rw [Window.map_apply]
      congr 1
      exact (List.map_mergeSort hOrder).trans
        (congrArg (List.mergeSort · StoredTuple.precedes)
          hTuples.symm)

/- Whether a tuple was there is told by the snapshot. -/
theorem has_snapshot
    (tables : Tables)
    (txid : Int)
    (key : TupleKey) :
    tables.has key (.snapshot txid) =
      (tables.past txid).has key .live := by
  unfold has
  cases key.check with
  | error fault => rfl
  | ok parts =>
      have hFound :=
        find_snapshot tables txid
          { userType := some parts.user.object.type
            userId := some parts.user.object.id
            userRelation := some (parts.user.relation.getD [])
            relation := some parts.relation
            objectType := some parts.object.type
            objectId := some parts.object.id
            window := { limit := 1 } }
      -- as many tuples are found, whatever they show
      simp only
      rw [← hFound]
      generalize tables.find _ = found
      cases found with
      | error error => rfl
      | ok rows => simp [Except.map]

/- The ids of the objects of a snapshot are those of its time. -/
theorem objectIds_snapshot
    (tables : Tables)
    (txid : Int)
    (type : Bytes) :
    tables.objectIds type (.snapshot txid) =
      (tables.past txid).objectIds type .live := by
  unfold objectIds
  have hRequire :
      (tables.past txid).require .tuples =
        tables.require .tuples := rfl
  rw [hRequire]
  cases tables.require .tuples with
  | error error => rfl
  | ok present =>
      have hTuples :=
        filter_tuplesAt tables txid
          (fun tuple => tuple.parts.object.type = type)
          fun _ => Iff.rfl
      have hIds :=
        congrArg (List.map fun tuple => tuple.parts.object.id)
          hTuples
      rw [List.map_map] at hIds
      simp only
      congr 2
      exact hIds.symm

/- Lookups only depend on the tuples and the missing tables. -/
theorem find_congr
    {first second : Tables}
    (hTuples : first.tuples = second.tuples)
    (hMissing : first.missing = second.missing)
    (filter : TupleFilter) :
    first.find filter = second.find filter := by
  unfold find require
  rw [hTuples, hMissing]

/-
  Whatever is looked up in the snapshot at a transaction of
  some tables is what other tables have among their live
  tuples. Deletions do not show.
-/
structure Recalls (txid : Int) (now before : Tables) : Prop where
  find : ∀ filter : TupleFilter, ∃ rows,
    now.find { filter with visibility := .snapshot txid } =
        .ok rows ∧
      before.find { filter with visibility := .live } =
        .ok (rows.map StoredTuple.undeleted)
  has : ∀ key,
    now.has key (.snapshot txid) = before.has key .live
  objectIds : ∀ type, ∃ ids,
    now.objectIds type (.snapshot txid) = .ok ids ∧
      before.objectIds type .live = .ok ids

theorem recalls_of_tuplesAt
    {now before : Tables}
    (hTuples : now.tuplesAt txid = before.tuples)
    (hNow : now.missing = [])
    (hBefore : before.missing = []) :
    Recalls txid now before := by
  have hPast : (now.past txid).tuples = before.tuples := hTuples
  have hMissing : (now.past txid).missing = before.missing :=
    hNow.trans hBefore.symm
  constructor
  · intro filter
    rcases exists_find hNow
        { filter with visibility := .snapshot txid } with
      ⟨rows, hRows⟩
    have hFound := find_snapshot now txid filter
    rw [hRows, find_congr hPast hMissing] at hFound
    exact ⟨rows, hRows, hFound.symm⟩
  · intro key
    rw [has_snapshot]
    unfold Tables.has
    simp only [find_congr hPast hMissing]
  · intro type
    rcases exists_objectIds hNow type (.snapshot txid) with
      ⟨ids, hIds⟩
    have hSame := objectIds_snapshot now txid type
    rw [hIds] at hSame
    refine ⟨ids, hIds, ?_⟩
    rw [hSame]
    unfold Tables.objectIds require
    rw [hPast, hMissing]

end Tables

------------------------------------------------------------
-- Later Changes
------------------------------------------------------------

namespace Tables

open StoredTuple (asOf)

variable {tables : Tables}
variable {txid number now : Int}

theorem tuplesAt_retire
    {tuple : StoredTuple}
    (entry : Bytes)
    (hSound : tables.Sound)
    (hTuple : tuple ∈ tables.tuples)
    (hLive : tuple.Live)
    (hLater : txid < number) :
    (tables.retire number now tuple.id entry).tuplesAt txid =
      tables.tuplesAt txid := by
  have hCreated :
      ((fun row => decide (row.created ≤ txid)) ∘
          fun row : StoredTuple =>
            if row.id = tuple.id then
              { row with deleted := some number }
            else
              row) =
        fun row => decide (row.created ≤ txid) := by
    funext row
    rw [Function.comp_apply]
    split <;> rfl
  unfold tuplesAt retire
  rw [List.filter_map, List.map_map, hCreated]
  apply List.map_congr_left
  intro row hRow
  rw [Function.comp_apply]
  split
  · next hId =>
      have hMem := (List.mem_filter.mp hRow).1
      have hSame := hSound.eq_of_id_eq hMem hTuple hId
      rw [hSame]
      exact StoredTuple.asOf_delete hLive hLater
  · rfl

theorem tuplesAt_enter
    (id entry : Bytes)
    (parts : TupleKey.Parts)
    (hLater : txid < number) :
    (tables.enter number now id entry parts).tuplesAt txid =
      tables.tuplesAt txid := by
  have hAfter : ¬ number ≤ txid := Int.not_le.mpr hLater
  simp [tuplesAt, enter, hAfter]

/- A batch does not change the snapshots before it. -/
theorem tuplesAt_kept
    {rows : List StoredTuple}
    (hLater : txid < number) :
    Kept number now fun tables =>
      tables.Sound ∧ tables.tuplesAt txid = rows := by
  apply kept_of_sound
  · intro tables tuple entry hSound hRows hTuple hLive
    rw [tuplesAt_retire entry hSound hTuple hLive hLater]
    exact hRows
  · intro tables parts id entry hRows _
    rw [tuplesAt_enter id entry parts hLater]
    exact hRows

end Tables

namespace Store

open Tables

variable {store : Store}
variable {txid : Int}

/- A batch does not change the snapshots before its own. -/
theorem tuplesAt_of_write
    {after : Store}
    {now : Int}
    {writes deletes : List TupleKey}
    {receipt : Receipt}
    (hSteady : store.Steady)
    (hRun :
      (write now writes deletes).run store =
        (.ok receipt, after))
    (hLater : txid < receipt.txid) :
    after.tables.tuplesAt txid = store.tables.tuplesAt txid := by
  rcases batch_of_write hSteady.idle hSteady.sound hRun with
    ⟨_, _, _, _, hBatch⟩
  rw [(txid_of_write hSteady hRun).1] at hLater
  exact (hBatch.preserves (tuplesAt_kept hLater)
    ⟨hSteady.sound.next, rfl⟩).2

theorem tuplesAt_of_sameRows
    {before after : Tables}
    (hSame : SameRows before after) :
    after.tuplesAt txid = before.tuplesAt txid := by
  unfold tuplesAt
  rw [hSame.tuples]

/- As long as numbers differ, no snapshot that is there changes. -/
theorem tuplesAt_perform
    (event : Event)
    (hSteady : store.Steady)
    (hBefore : txid ≤ store.tables.last)
    (hRoom : txid < Numeral.largestInt64) :
    txid ≤ (store.perform event).tables.last ∧
      (store.perform event).tables.tuplesAt txid =
        store.tables.tuplesAt txid := by
  rcases perform_cases event hSteady.idle with
    ⟨now, writes, deletes, receipt, _, hRun⟩ | ⟨_, hSame⟩
  · rcases txid_of_write hSteady hRun with ⟨hNumber, hLast⟩
    have hLater : txid < receipt.txid := by
      unfold following at hNumber
      omega
    refine ⟨?_, tuplesAt_of_write hSteady hRun hLater⟩
    omega
  · rw [hSame.last]
    exact ⟨hBefore, tuplesAt_of_sameRows hSame⟩

/- Whatever happens, the snapshots that are there stay. -/
theorem tuplesAt_run
    (events : List Event)
    (hSteady : store.Steady)
    (hBefore : txid ≤ store.tables.last)
    (hRoom : txid < Numeral.largestInt64) :
    (store.run events).tables.tuplesAt txid =
      store.tables.tuplesAt txid := by
  induction events generalizing store with
  | nil => rfl
  | cons event others hOthers =>
      rcases tuplesAt_perform event hSteady hBefore hRoom with
        ⟨hLast, hRows⟩
      rw [run, hOthers (hSteady.perform event) hLast, hRows]

------------------------------------------------------------
-- Transactions of a History
------------------------------------------------------------

/-
  Events that end with the batch of a transaction. The start
  itself counts as transaction zero.
-/
inductive LeftBy (start : Store) : Int → List Event → Prop where
  | start : LeftBy start 0 []
  | batch
      {earlier : List Event}
      {now : Int}
      {writes deletes : List TupleKey}
      {receipt : Receipt}
      {after : Store}
      (hRun :
        (write now writes deletes).run (start.run earlier) =
          (.ok receipt, after)) :
      LeftBy start receipt.txid
        (earlier ++ [.write now writes deletes])

/- Such a batch leaves its number as the last one. -/
theorem LeftBy.last
    {start : Store}
    {events : List Event}
    (hBlank : start.Blank)
    (hLeft : LeftBy start txid events) :
    (start.run events).tables.last = txid := by
  cases hLeft with
  | start => exact hBlank.last
  | @batch earlier now writes deletes receipt after hRun =>
      have hSteady :=
        ((Reachable.blank hBlank).run earlier).steady
      have hAfter :
          (start.run earlier).perform
              (.write now writes deletes) =
            after := congrArg Prod.snd hRun
      rw [run_append, run, run, hAfter]
      exact (txid_of_write hSteady hRun).2

/-
  Every transaction up to the last one was that of a batch,
  and the snapshot at it holds what that batch left.
-/
theorem exists_leftBy
    {start : Store}
    (hBlank : start.Blank)
    (events : List Event)
    (hFirst : 0 ≤ txid)
    (hLast : txid ≤ (start.run events).tables.last) :
    ∃ earlier later,
      events = earlier ++ later ∧
        LeftBy start txid earlier ∧
          (start.run events).tables.tuplesAt txid =
            (start.run earlier).tables.tuples := by
  induction events using List.reverseRecOn with
  | nil =>
      have hStart : start.tables.last = 0 := hBlank.last
      have hZero : txid = start.tables.last :=
        Int.le_antisymm hLast (hStart ▸ hFirst)
      refine ⟨[], [], rfl, ?_, ?_⟩
      · rw [hZero, hStart]
        exact .start
      · rw [hZero]
        exact hBlank.steady.timely.tuplesAt_last
  | append_singleton events event hEvents =>
      have hSteady := ((Reachable.blank hBlank).run events).steady
      have hAfter :
          start.run (events ++ [event]) =
            (start.run events).perform event :=
        run_append events [event] start
      rw [hAfter] at hLast ⊢
      -- the event changes nothing in the snapshot
      have hEarlier :
          txid ≤ (start.run events).tables.last →
            ((start.run events).perform event).tables.tuplesAt
                txid =
              (start.run events).tables.tuplesAt txid →
              ∃ earlier later,
                events ++ [event] = earlier ++ later ∧
                  LeftBy start txid earlier ∧
                    ((start.run events).perform
                        event).tables.tuplesAt txid =
                      (start.run earlier).tables.tuples := by
        intro hBefore hSame
        rcases hEvents hBefore with
          ⟨earlier, later, hSplit, hLeft, hRows⟩
        refine ⟨earlier, later ++ [event], ?_, hLeft, ?_⟩
        · rw [hSplit, List.append_assoc]
        · exact hSame.trans hRows
      rcases perform_cases event hSteady.idle with
        ⟨now, writes, deletes, receipt, rfl, hRun⟩ | ⟨_, hSame⟩
      · rcases txid_of_write hSteady hRun with
          ⟨hNumber, hNext⟩
        by_cases hLater : txid < receipt.txid
        · have hBefore :
              txid ≤ (start.run events).tables.last := by
            unfold following at hNumber
            omega
          exact hEarlier hBefore
            (tuplesAt_of_write hSteady hRun hLater)
        · have hTxid : txid = receipt.txid := by omega
          refine ⟨_, [], (List.append_nil _).symm, ?_, ?_⟩
          · rw [hTxid]
            exact .batch hRun
          · rw [hAfter, hTxid, ← hNext]
            exact (hSteady.perform _).timely.tuplesAt_last
      · have hBefore :
            txid ≤ (start.run events).tables.last := by
          rw [hSame.last] at hLast
          exact hLast
        exact hEarlier hBefore (tuplesAt_of_sameRows hSame)

end Store

end Rebac
