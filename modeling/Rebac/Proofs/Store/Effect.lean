import Rebac.Proofs.Store.History

/-
  This file proves what a batch that succeeds has done: which
  keys are live afterwards, how many tuples were deleted and
  written, and what became of every row.

  Repeated keys count once, and a key that is both deleted
  and written is deleted first.

  Key definitions include:
    * `StoredTuple.marked`
    * `Tables.Outcome`

  Key theorems include:
    * `Tables.Each.deleted`
    * `Tables.Each.written`
    * `Store.outcome_of_write`
-/

namespace Rebac

/- A tuple after some keys were deleted in a transaction. -/
def StoredTuple.marked
    (txid : Int)
    (keys : List TupleKey)
    (tuple : StoredTuple) : StoredTuple :=
  if tuple.Live ∧ tuple.key ∈ keys then
    { tuple with deleted := some txid }
  else
    tuple

namespace Tables

open StoredTuple (marked)

variable {tables after : Tables}
variable {txid now : Int}
variable {count : Nat}

------------------------------------------------------------
-- Single Changes
------------------------------------------------------------

/- The key of a tuple that is retired is not live any more. -/
theorem liveKeys_retire
    {tuple : StoredTuple}
    {entry : Bytes}
    (hSound : tables.Sound)
    (hTuple : tuple ∈ tables.tuples)
    (hLive : tuple.Live) :
    (tables.retire txid now tuple.id entry).liveKeys =
      tables.liveKeys.erase tuple.key := by
  ext key
  rw [Finset.mem_erase, mem_liveKeys_iff, mem_liveKeys_iff]
  constructor
  · intro hMem
    rcases hMem with ⟨other, hOther, hAlive, rfl⟩
    rcases List.mem_map.mp hOther with ⟨row, hRow, hMarked⟩
    by_cases hId : row.id = tuple.id
    · rw [if_pos hId] at hMarked
      rw [← hMarked] at hAlive
      cases hAlive
    · rw [if_neg hId] at hMarked
      rw [← hMarked] at hAlive ⊢
      refine ⟨?_, row, hRow, hAlive, rfl⟩
      intro hKey
      have hSame :=
        hSound.keys row hRow tuple hTuple hAlive hLive hKey
      exact hId (congrArg StoredTuple.id hSame)
  · intro hMem
    rcases hMem with ⟨hOther, row, hRow, hAlive, hKey⟩
    have hId : row.id ≠ tuple.id := by
      intro hId
      have hSame := hSound.eq_of_id_eq hRow hTuple hId
      rw [← hKey, hSame] at hOther
      exact hOther rfl
    refine ⟨row, ?_, hAlive, hKey⟩
    exact List.mem_map.mpr ⟨row, hRow, if_neg hId⟩

/- The key of a tuple that is entered is live. -/
theorem liveKeys_enter
    {id entry : Bytes}
    {parts : TupleKey.Parts} :
    (tables.enter txid now id entry parts).liveKeys =
      insert parts.key tables.liveKeys := by
  ext key
  simp only [Finset.mem_insert, mem_liveKeys_iff, enter,
    List.mem_append, List.mem_singleton]
  constructor
  · intro hMem
    rcases hMem with ⟨tuple, hOld | hNew, hLive, hKey⟩
    · exact .inr ⟨tuple, hOld, hLive, hKey⟩
    · rw [← hKey, hNew]
      exact .inl rfl
  · intro hMem
    rcases hMem with hKey | ⟨tuple, hOld, hLive, hKey⟩
    · exact ⟨_, .inr rfl, rfl, hKey.symm⟩
    · exact ⟨tuple, .inl hOld, hLive, hKey⟩

/- Retiring the live tuple of a key marks that key. -/
theorem tuples_retire
    {tuple : StoredTuple}
    {entry : Bytes}
    (hSound : tables.Sound)
    (hTuple : tuple ∈ tables.tuples)
    (hLive : tuple.Live) :
    (tables.retire txid now tuple.id entry).tuples =
      tables.tuples.map (marked txid [tuple.key]) := by
  apply List.map_congr_left
  intro row hRow
  have hIff :
      row.id = tuple.id ↔
        row.Live ∧ row.key ∈ [tuple.key] := by
    rw [List.mem_singleton]
    constructor
    · intro hId
      have hSame := hSound.eq_of_id_eq hRow hTuple hId
      rw [hSame]
      exact ⟨hLive, rfl⟩
    · intro hBoth
      rcases hBoth with ⟨hAlive, hKey⟩
      have hSame :=
        hSound.keys row hRow tuple hTuple hAlive hLive hKey
      rw [hSame]
  unfold marked
  simp only [hIff]

------------------------------------------------------------
-- Marks
------------------------------------------------------------

/- Marking a key and then others marks them all. -/
theorem marked_marked
    (key : TupleKey)
    (keys : List TupleKey)
    (tuple : StoredTuple) :
    marked txid keys (marked txid [key] tuple) =
      marked txid (key :: keys) tuple := by
  by_cases hKey : tuple.Live ∧ tuple.key = key
  · have hFirst :
        marked txid [key] tuple =
          { tuple with deleted := some txid } := by
      simp [marked, hKey]
    have hAll :
        marked txid (key :: keys) tuple =
          { tuple with deleted := some txid } := by
      simp [marked, hKey]
    rw [hFirst, hAll]
    simp [marked, StoredTuple.Live]
  · have hFirst : marked txid [key] tuple = tuple := by
      simp [marked, hKey]
    rw [hFirst]
    unfold marked
    simp only [List.mem_cons]
    congr 1
    apply propext
    constructor
    · intro hOther
      exact ⟨hOther.1, .inr hOther.2⟩
    · intro hAny
      rcases hAny with ⟨hLive, hSame | hMem⟩
      · exact absurd ⟨hLive, hSame⟩ hKey
      · exact ⟨hLive, hMem⟩

/- Marking a key that is not live does nothing. -/
theorem map_marked_of_absent
    (txid : Int)
    {key : TupleKey}
    (hAbsent : key ∉ tables.liveKeys) :
    tables.tuples.map (marked txid [key]) = tables.tuples := by
  have hSame :
      ∀ tuple ∈ tables.tuples,
        marked txid [key] tuple = tuple := by
    intro tuple hTuple
    apply if_neg
    intro hMarked
    rcases hMarked with ⟨hLive, hKey⟩
    rw [List.mem_singleton] at hKey
    exact hAbsent
      (mem_liveKeys_iff.mpr ⟨tuple, hTuple, hLive, hKey⟩)
  rw [List.map_congr_left hSame, List.map_id']

------------------------------------------------------------
-- Lists of Keys
------------------------------------------------------------

/- A key is counted apart from the other ones. -/
theorem card_insert_erase
    (key : TupleKey)
    (keys : Finset TupleKey) :
    (insert key keys).card = 1 + (keys.erase key).card := by
  have hCard :=
    Finset.card_erase_add_one (Finset.mem_insert_self key keys)
  rw [Finset.erase_insert_eq_erase] at hCard
  omega

/-
  Deleting some keys marks the live tuples of these keys,
  and each of them is counted once.
-/
theorem Each.deleted
    {removals : List TupleKey.Parts}
    (hSound : tables.Sound)
    (hEach :
      Each (Deletes txid now) removals tables count after) :
    let keys := removals.map TupleKey.Parts.key
    after.tuples = tables.tuples.map (marked txid keys) ∧
      after.liveKeys = tables.liveKeys \ keys.toFinset ∧
        count = (keys.toFinset ∩ tables.liveKeys).card := by
  induction hEach with
  | nil =>
      have hSame : marked txid [] = id := by
        funext tuple
        simp [marked]
      simp [hSame]
  | @cons parts others tables middle after first rest hFirst
      hRest hOthers =>
      have hMiddle := sound_kept.deletes hFirst hSound
      rcases hOthers hMiddle with ⟨hTuples, hLive, hCount⟩
      simp only [List.map_cons, List.toFinset_cons]
      cases hFirst with
      | absent hAbsent =>
          refine ⟨?_, ?_, ?_⟩
          · have hNone := map_marked_of_absent txid hAbsent
            rw [hTuples]
            nth_rewrite 1 [← hNone]
            rw [List.map_map]
            exact List.map_congr_left fun tuple _ =>
              marked_marked _ _ tuple
          · rw [hLive, Finset.sdiff_insert,
              Finset.erase_eq_of_notMem]
            intro hMem
            exact hAbsent (Finset.mem_sdiff.mp hMem).1
          · rw [hCount, Finset.insert_inter_of_notMem hAbsent,
              Nat.zero_add]
      | present tuple entry hTuple hAlive hKey hEntry =>
          have hPresent : parts.key ∈ tables.liveKeys :=
            mem_liveKeys_iff.mpr ⟨tuple, hTuple, hAlive, hKey⟩
          have hKeys :
              (tables.retire txid now tuple.id entry).liveKeys =
                tables.liveKeys.erase parts.key := by
            rw [liveKeys_retire hSound hTuple hAlive, hKey]
          refine ⟨?_, ?_, ?_⟩
          · rw [hTuples, tuples_retire hSound hTuple hAlive,
              List.map_map, hKey]
            exact List.map_congr_left fun tuple _ =>
              marked_marked _ _ tuple
          · rw [hLive, hKeys, Finset.erase_sdiff_comm,
              ← Finset.sdiff_insert]
          · rw [hCount, hKeys, Finset.inter_erase,
              Finset.insert_inter_of_mem hPresent,
              card_insert_erase]

/-
  Writing some keys adds live tuples for those that are not
  live yet, and each of them is counted once.
-/
theorem Each.written
    {additions : List TupleKey.Parts}
    (hEach :
      Each (Writes txid now) additions tables count after) :
    let keys := additions.map TupleKey.Parts.key
    (∃ added,
      after.tuples = tables.tuples ++ added ∧
        ∀ tuple ∈ added,
          tuple.created = txid ∧ tuple.deleted = none) ∧
      after.liveKeys = tables.liveKeys ∪ keys.toFinset ∧
        count = (keys.toFinset \ tables.liveKeys).card := by
  induction hEach with
  | nil => simp
  | @cons parts others tables middle after first rest hFirst
      hRest hOthers =>
      rcases hOthers with
        ⟨⟨added, hTuples, hAdded⟩, hLive, hCount⟩
      simp only [List.map_cons, List.toFinset_cons]
      cases hFirst with
      | present hPresent =>
          refine ⟨⟨added, hTuples, hAdded⟩, ?_, ?_⟩
          · rw [hLive, Finset.union_insert, Finset.insert_eq_self.mpr]
            exact Finset.mem_union_left _ hPresent
          · rw [hCount, Finset.insert_sdiff_of_mem _ hPresent,
              Nat.zero_add]
      | absent id entry hValid hAbsent hId hEntry =>
          refine ⟨?_, ?_, ?_⟩
          · refine ⟨⟨id, parts, txid, none, now⟩ :: added, ?_, ?_⟩
            · rw [hTuples]
              exact List.append_assoc tables.tuples [_] added
            · intro tuple hTuple
              rcases List.mem_cons.mp hTuple with rfl | hRest
              · exact ⟨rfl, rfl⟩
              · exact hAdded tuple hRest
          · rw [hLive, liveKeys_enter, Finset.insert_union,
              Finset.union_insert]
          · rw [hCount, liveKeys_enter, Finset.sdiff_insert,
              Finset.insert_sdiff_of_notMem _ hAbsent,
              card_insert_erase]

------------------------------------------------------------
-- Batches
------------------------------------------------------------

/-
  What a batch that succeeds has done. The live keys are the
  earlier ones without the deleted ones, and the written ones;
  each has a single live tuple. The numbers count keys and not
  how often they were given. Every earlier tuple is still
  there, and only the live tuples of deleted keys are marked.
  The transaction has the next number; there is none after
  the greatest one.
-/
structure Outcome
    (writes deletes : List TupleKey)
    (receipt : Receipt)
    (before after : Tables) : Prop where
  live : after.liveKeys =
    (before.liveKeys \ deletes.toFinset) ∪ writes.toFinset
  single : ∀ key ∈ after.liveKeys,
    ∃ tuple, after.liveOf key = [tuple]
  deleted : receipt.deleted =
    (deletes.toFinset ∩ before.liveKeys).card
  written : receipt.written =
    (writes.toFinset \
      (before.liveKeys \ deletes.toFinset)).card
  next : before.last < Numeral.largestInt64 →
    receipt.txid = before.last + 1
  last : after.last = receipt.txid
  rows : ∃ added,
    after.tuples =
        before.tuples.map (marked receipt.txid deletes) ++
          added ∧
      ∀ tuple ∈ added,
        tuple.created = receipt.txid ∧ tuple.deleted = none

/- No change of rows touches the last transaction. -/
theorem last_kept
    {last : Int} :
    Kept txid now fun tables => tables.last = last where
  retire _ _ _ hLast _ _ _ := hLast
  enter _ _ _ _ hLast _ _ _ _ := hLast

/- The number after one that is not the greatest. -/
theorem following_eq
    (hRoom : txid < Numeral.largestInt64) :
    Store.following txid = txid + 1 := by
  unfold Store.following
  omega

theorem Batch.outcome
    {additions removals : List TupleKey.Parts}
    {receipt : Receipt}
    (hSound : tables.Sound)
    (hBatch :
      Batch (Store.following tables.last) now additions removals
        tables.next receipt after) :
    Outcome (additions.map TupleKey.Parts.key)
      (removals.map TupleKey.Parts.key) receipt tables after := by
  have hAfter : after.Sound :=
    hBatch.preserves sound_kept hSound.next
  have hLast : after.last = Store.following tables.last :=
    hBatch.preserves last_kept rfl
  rcases hBatch with ⟨hTxid, middle, hDeletes, hWrites⟩
  rcases hDeletes.deleted hSound.next with
    ⟨hMarked, hRemoved, hDeleted⟩
  rcases hWrites.written with
    ⟨⟨added, hTuples, hAdded⟩, hLive, hWritten⟩
  rw [hRemoved] at hLive hWritten
  rw [hMarked] at hTuples
  constructor
  · exact hLive
  · intro key hKey
    rcases hAfter.live_cases key with
      ⟨_, hAbsent⟩ | ⟨tuple, hOne, _⟩
    · exact absurd hKey hAbsent
    · exact ⟨tuple, hOne⟩
  · exact hDeleted
  · exact hWritten
  · intro hRoom
    rw [hTxid, following_eq hRoom]
  · rw [hLast, hTxid]
  · rw [hTxid]
    exact ⟨added, hTuples, hAdded⟩

end Tables

namespace Store

open Tables

/- A batch that succeeds has the next number. -/
theorem txid_of_write
    {store after : Store}
    {now : Int}
    {writes deletes : List TupleKey}
    {receipt : Receipt}
    (hSteady : store.Steady)
    (hRun :
      (write now writes deletes).run store =
        (.ok receipt, after)) :
    receipt.txid = following store.tables.last ∧
      after.tables.last = receipt.txid := by
  rcases batch_of_write hSteady.idle hSteady.sound hRun with
    ⟨_, _, _, _, hBatch⟩
  exact ⟨hBatch.1, (hBatch.outcome hSteady.sound).last⟩

/-
  A batch that succeeds on a store has done what its keys
  ask for, and nothing else.
-/
theorem outcome_of_write
    {store after : Store}
    {now : Int}
    {writes deletes : List TupleKey}
    {receipt : Receipt}
    (hReachable : store.Reachable)
    (hRun :
      (write now writes deletes).run store =
        (.ok receipt, after)) :
    Outcome writes deletes receipt store.tables after.tables := by
  have hSteady := hReachable.steady
  rcases batch_of_write hSteady.idle hSteady.sound hRun with
    ⟨additions, removals, hWrites, hDeletes, hBatch⟩
  rw [← hWrites, ← hDeletes]
  exact hBatch.outcome hSteady.sound

end Store

namespace Sharing

/- Both keys are deleted and written; the team's was not live. -/
def rewrite : Store.Event :=
  .write 2000 [team, alice, team] [alice, team]

theorem rewrite_receipt :
    ((Store.write 2000 [team, alice, team] [alice, team]).run
      shared).1 = .ok ⟨2, 2, 1⟩ := by
  decide +kernel

theorem rewrite_outcome :
    shared.Reachable ∧
      (Store.write 2000 [team, alice, team] [alice, team]).run
          shared =
        (.ok ⟨2, 2, 1⟩, shared.perform rewrite) ∧
      shared.tables.last < Numeral.largestInt64 ∧
      Tables.Outcome [team, alice, team] [alice, team]
        ⟨2, 2, 1⟩ shared.tables
        (shared.perform rewrite).tables := by
  have hRun := Store.run_write rewrite_receipt
  refine ⟨shared_reachable, hRun, by decide +kernel, ?_⟩
  exact Store.outcome_of_write shared_reachable hRun

end Sharing

end Rebac
