import Rebac.Proofs.Store.Changelog
import Rebac.Proofs.Store.Query

/-
  This file proves what a reader of the log of changes
  receives who asks for one page after another.

  Such a reader goes on after the transaction of the last
  entry that it has received. If a page ends between two
  entries of one transaction, the second one is skipped, and
  this is the only way to miss an entry.

  Key definitions include:
    * `Tables.log`
    * `Tables.unread`
    * `Tables.Polls`
    * `Tables.Uncut`

  Key theorems include:
    * `Tables.changesSince_eq`
    * `Tables.Polls.unique`
    * `Tables.exists_polls`
    * `Store.polls_all_iff`
-/

namespace Rebac

------------------------------------------------------------
-- The Order of the Log
------------------------------------------------------------

namespace Change

variable {first second third : Change}

theorem precedes_iff :
    first.precedes second = true ↔
      first.txid < second.txid ∨
        (first.txid = second.txid ∧ first.id ≤ second.id) := by
  simp [precedes]

theorem precedes_trans
    (first second third : Change)
    (hFirst : first.precedes second = true)
    (hSecond : second.precedes third = true) :
    first.precedes third = true := by
  rw [precedes_iff] at hFirst hSecond ⊢
  rcases hFirst with hBefore | ⟨hSame, hId⟩
  · left
    omega
  · rcases hSecond with hBefore | ⟨hOther, hNext⟩
    · left
      omega
    · right
      exact ⟨hSame.trans hOther, List.le_trans hId hNext⟩

theorem precedes_total (first second : Change) :
    (first.precedes second || second.precedes first) = true := by
  rw [Bool.or_eq_true, precedes_iff, precedes_iff]
  rcases Int.lt_trichotomy first.txid second.txid with
    hBefore | hSame | hAfter
  · exact .inl (.inl hBefore)
  · rcases List.le_total first.id second.id with hId | hId
    · exact .inl (.inr ⟨hSame, hId⟩)
    · exact .inr (.inr ⟨hSame.symm, hId⟩)
  · exact .inr (.inl hAfter)

/- Entries that precede each other are the same by their ids. -/
theorem id_eq_of_precedes
    (hFirst : first.precedes second = true)
    (hSecond : second.precedes first = true) :
    first.id = second.id := by
  rw [precedes_iff] at hFirst hSecond
  rcases hFirst with hBefore | ⟨hSame, hId⟩
  · omega
  · rcases hSecond with hBefore | ⟨_, hOther⟩
    · omega
    · exact List.le_antisymm hId hOther

end Change

namespace Tables

variable {tables : Tables}
variable {limit : UInt64}
variable {since : Int}

/- All changes in the order in which they are read. -/
def log (tables : Tables) : List Change :=
  tables.changes.mergeSort Change.precedes

/- The changes after a transaction, in the same order. -/
def unread (since : Int) (tables : Tables) : List Change :=
  tables.log.filter fun change => since < change.txid

theorem pairwise_log :
    tables.log.Pairwise fun first second =>
      first.precedes second = true :=
  List.pairwise_mergeSort
    Change.precedes_trans Change.precedes_total _

theorem log_perm : tables.log.Perm tables.changes :=
  List.mergeSort_perm _ _

/- Later transactions follow earlier ones. -/
theorem pairwise_unread
    (tables : Tables)
    (since : Int) :
    (tables.unread since).Pairwise fun first second =>
      first.txid ≤ second.txid := by
  refine (pairwise_log.imp ?_).filter _
  intro first second hPrecedes
  rw [Change.precedes_iff] at hPrecedes
  omega

/- A page is the start of what has not been read. -/
theorem changesSince_eq
    (hSound : tables.Sound)
    (hMissing : tables.missing = [])
    (since : Int)
    (limit : UInt64) :
    tables.changesSince since limit =
      .ok (Window.limited limit (tables.unread since)) := by
  have hSorted :
      (tables.changes.filter fun change =>
          since < change.txid).mergeSort Change.precedes =
        tables.unread since := by
    refine List.Perm.eq_of_pairwise ?_
      (List.pairwise_mergeSort Change.precedes_trans
        Change.precedes_total _)
      (pairwise_log.filter _)
      ((List.mergeSort_perm _ _).trans
        (log_perm.filter _).symm)
    intro first second hFirst hSecond hBefore hAfter
    have hFirstMem : first ∈ tables.changes :=
      (List.mem_filter.mp (List.mem_mergeSort.mp hFirst)).1
    have hSecondMem : second ∈ tables.changes :=
      log_perm.mem_iff.mp (List.mem_filter.mp hSecond).1
    exact List.inj_on_of_nodup_map hSound.entries hFirstMem
      hSecondMem (Change.id_eq_of_precedes hBefore hAfter)
  unfold changesSince
  rw [require_eq hMissing, ← hSorted]

------------------------------------------------------------
-- Readers
------------------------------------------------------------

/-
  What a reader receives that asks for pages of at most some
  number of changes, each time after the transaction of the
  last one that it has, until a page is empty.
-/
inductive Polls (tables : Tables) (limit : UInt64) :
    Int → List Change → Prop where
  | done
      {since : Int}
      (hPage : tables.changesSince since limit = .ok []) :
      Polls tables limit since []
  | page
      {since : Int}
      {entries others : List Change}
      {last : Change}
      (hPage : tables.changesSince since limit = .ok entries)
      (hLast : entries.getLast? = some last)
      (hRest : Polls tables limit last.txid others) :
      Polls tables limit since (entries ++ others)

/- A reader cannot receive different changes. -/
theorem Polls.unique
    {first second : List Change}
    (hFirst : Polls tables limit since first)
    (hSecond : Polls tables limit since second) :
    first = second := by
  induction hFirst generalizing second with
  | done hEnd =>
      cases hSecond with
      | done _ => rfl
      | page hPage hLast _ =>
          rw [hEnd] at hPage
          cases hPage
          cases hLast
  | page hPage hLast _ hOthers =>
      cases hSecond with
      | done hEnd =>
          rw [hEnd] at hPage
          cases hPage
          cases hLast
      | page hSame hOther hRest =>
          rw [hPage] at hSame
          cases hSame
          rw [hLast] at hOther
          cases hOther
          rw [hOthers hRest]

/-
  No page of the given size ends between two entries of the
  same transaction.
-/
def Uncut (size : Nat) (entries : List Change) : Prop :=
  ∀ pages, 0 < pages → ∀ before after,
    entries[pages * size - 1]? = some before →
      entries[pages * size]? = some after →
        before.txid ≠ after.txid

theorem uncut_iff
    {size : Nat}
    {entries : List Change}
    (hSize : 0 < size) :
    Uncut size entries ↔
      (∀ before after, entries[size - 1]? = some before →
        entries[size]? = some after →
          before.txid ≠ after.txid) ∧
        Uncut size (entries.drop size) := by
  have hShift :
      ∀ pages, 0 < pages →
        (pages + 1) * size = size + pages * size ∧
          (pages + 1) * size - 1 =
            size + (pages * size - 1) := by
    intro pages hPages
    have hPositive := Nat.mul_pos hPages hSize
    rw [Nat.succ_mul]
    omega
  constructor
  · intro hUncut
    refine ⟨?_, ?_⟩
    · have hFirst := hUncut 1 Nat.one_pos
      rw [Nat.one_mul] at hFirst
      exact hFirst
    · intro pages hPages
      have hNext := hUncut (pages + 1) (Nat.succ_pos pages)
      rw [(hShift pages hPages).2, (hShift pages hPages).1]
        at hNext
      rw [List.getElem?_drop, List.getElem?_drop]
      exact hNext
  · intro hBoth pages hPages
    rcases hBoth with ⟨hFirst, hOthers⟩
    rcases pages with _ | _ | pages
    · cases hPages
    · rw [Nat.zero_add, Nat.one_mul]
      exact hFirst
    · have hNext := hOthers (pages + 1) (Nat.succ_pos pages)
      rw [List.getElem?_drop, List.getElem?_drop] at hNext
      rw [(hShift (pages + 1) (Nat.succ_pos pages)).2,
        (hShift (pages + 1) (Nat.succ_pos pages)).1]
      exact hNext

------------------------------------------------------------
-- Pages
------------------------------------------------------------

/- The last entry of a page has the greatest transaction. -/
theorem txid_le_last
    {page : List Change}
    {last change : Change}
    (hSorted : page.Pairwise fun first second =>
      first.txid ≤ second.txid)
    (hLast : page.getLast? = some last)
    (hChange : change ∈ page) :
    change.txid ≤ last.txid := by
  rcases List.getLast?_eq_some_iff.mp hLast with
    ⟨others, hPage⟩
  rw [hPage] at hSorted hChange
  rcases List.mem_append.mp hChange with hOther | hSame
  · exact (List.pairwise_append.mp hSorted).2.2 change hOther
      last (List.mem_singleton_self _)
  · rw [List.mem_singleton.mp hSame]

/- After a page, what follows in its last transaction is lost. -/
theorem unread_of_page
    {page rest : List Change}
    {last : Change}
    (hSplit : tables.unread since = page ++ rest)
    (hLast : page.getLast? = some last) :
    tables.unread last.txid =
      rest.filter fun change => last.txid < change.txid := by
  have hSorted := tables.pairwise_unread since
  have hMem : last ∈ tables.unread since := by
    rw [hSplit]
    exact List.mem_append_left _ (List.mem_of_getLast? hLast)
  have hSince : since < last.txid :=
    of_decide_eq_true (List.mem_filter.mp hMem).2
  have hAgain :
      tables.unread last.txid =
        (tables.unread since).filter fun change =>
          last.txid < change.txid := by
    unfold unread
    rw [List.filter_filter]
    apply List.filter_congr
    intro change _
    rw [← Bool.decide_and]
    apply decide_eq_decide.mpr
    omega
  have hRead :
      (page.filter fun change => last.txid < change.txid) =
        [] := by
    rw [hSplit] at hSorted
    have hPage := (List.pairwise_append.mp hSorted).1
    rw [List.filter_eq_nil_iff]
    intro change hChange hLater
    have hBefore := txid_le_last hPage hLast hChange
    have hAfter := of_decide_eq_true hLater
    omega
  rw [hAgain, hSplit, List.filter_append, hRead,
    List.nil_append]

/- What is left after a page followed it. -/
theorem unread_sublist_drop
    {size : Nat}
    {last : Change}
    (hLast :
      ((tables.unread since).take size).getLast? = some last) :
    (tables.unread last.txid).Sublist
      ((tables.unread since).drop size) := by
  have hSplit :=
    (List.take_append_drop size (tables.unread since)).symm
  rw [unread_of_page hSplit hLast]
  exact List.filter_sublist

/- The first entry after a page has the least transaction. -/
theorem txid_le_of_mem_drop
    {size : Nat}
    {entries : List Change}
    {change : Change}
    (hSorted : entries.Pairwise fun first second =>
      first.txid ≤ second.txid)
    (hSize : size < entries.length)
    (hChange : change ∈ entries.drop size) :
    entries[size].txid ≤ change.txid := by
  have hDropped :
      (entries.drop size).Pairwise fun first second =>
        first.txid ≤ second.txid :=
    hSorted.sublist (List.drop_sublist size entries)
  rw [List.drop_eq_getElem_cons hSize] at hDropped hChange
  rcases List.mem_cons.mp hChange with hSame | hOther
  · rw [hSame]
  · exact (List.pairwise_cons.mp hDropped).1 change hOther

/- Nothing is lost exactly if the page ends with a batch. -/
theorem unread_eq_drop_iff
    {size : Nat}
    {last : Change}
    (hSize : 0 < size)
    (hLast :
      ((tables.unread since).take size).getLast? = some last) :
    tables.unread last.txid = (tables.unread since).drop size ↔
      ∀ before after,
        (tables.unread since)[size - 1]? = some before →
          (tables.unread since)[size]? = some after →
            before.txid ≠ after.txid := by
  have hSplit :=
    (List.take_append_drop size (tables.unread since)).symm
  have hRest := unread_of_page hSplit hLast
  have hSorted := tables.pairwise_unread since
  have hFinal :
      ∀ before, (tables.unread since)[size - 1]? = some before →
        before = last := by
    intro before hBefore
    rw [List.getLast?_take, if_neg (Nat.ne_of_gt hSize),
      hBefore] at hLast
    exact Option.some.inj hLast
  constructor
  · intro hWhole before after hBefore hAfter hSame
    have hMem : after ∈ tables.unread last.txid := by
      rw [hWhole]
      refine List.mem_iff_getElem?.mpr ⟨0, ?_⟩
      rw [List.getElem?_drop]
      exact hAfter
    have hLater := of_decide_eq_true (List.mem_filter.mp hMem).2
    rw [hFinal before hBefore] at hSame
    omega
  · intro hApart
    rw [hRest, List.filter_eq_self]
    intro change hChange
    have hLength : size < (tables.unread since).length := by
      have hSome := List.length_pos_of_mem hChange
      rw [List.length_drop] at hSome
      omega
    have hBefore :
        (tables.unread since)[size - 1]? =
          some (tables.unread since)[size - 1] :=
      List.getElem?_eq_getElem _
    have hAfter :
        (tables.unread since)[size]? =
          some (tables.unread since)[size] :=
      List.getElem?_eq_getElem _
    have hChanged := hApart _ _ hBefore hAfter
    have hOrder :=
      List.pairwise_iff_getElem.mp hSorted (size - 1) size
        (by omega) hLength (by omega)
    have hLeast := txid_le_of_mem_drop hSorted hLength hChange
    rw [hFinal _ hBefore] at hChanged hOrder
    apply decide_eq_true
    omega

/-
  If the rest is received as far as no page cuts it, then so
  is the page with the rest.
-/
theorem page_append_eq_iff
    {size : Nat}
    {last : Change}
    {others : List Change}
    (hSize : 0 < size)
    (hLast :
      ((tables.unread since).take size).getLast? = some last)
    (hOthers : others.Sublist (tables.unread last.txid))
    (hWhole :
      others = tables.unread last.txid ↔
        Uncut size (tables.unread last.txid)) :
    (tables.unread since).take size ++ others =
        tables.unread since ↔
      Uncut size (tables.unread since) := by
  have hSplit :=
    List.take_append_drop size (tables.unread since)
  rw [uncut_iff hSize, ← unread_eq_drop_iff hSize hLast]
  constructor
  · intro hSame
    have hRest : others = (tables.unread since).drop size :=
      List.append_cancel_left (hSame.trans hSplit.symm)
    have hAll :
        tables.unread last.txid =
          (tables.unread since).drop size :=
      (unread_sublist_drop hLast).antisymm (hRest ▸ hOthers)
    rw [← hAll] at hRest ⊢
    exact ⟨rfl, hWhole.mp hRest⟩
  · intro hBoth
    rcases hBoth with ⟨hAll, hUncut⟩
    rw [← hAll] at hUncut
    rw [hWhole.mpr hUncut, hAll, hSplit]

/-
  Reading on from any transaction ends, and misses no change
  exactly if no page cuts a transaction.
-/
theorem exists_polls
    (hRead : ∀ since,
      tables.changesSince since limit =
        .ok (Window.limited limit (tables.unread since)))
    (hLimit : limit ≠ 0)
    (hSigned : ¬ Window.signed limit < 0)
    (since : Int) :
    ∃ received,
      Polls tables limit since received ∧
        received.Sublist (tables.unread since) ∧
          (received = tables.unread since ↔
            Uncut limit.toNat (tables.unread since)) := by
  have hSize : 0 < limit.toNat :=
    Nat.pos_of_ne_zero fun hZero =>
      hLimit (UInt64.toNat_inj.mp hZero)
  have hPage :
      ∀ since,
        tables.changesSince since limit =
          .ok ((tables.unread since).take limit.toNat) := by
    intro since
    rw [hRead, Window.limited, if_neg hSigned]
  -- each page is followed by fewer entries than it started from
  induction hLength : (tables.unread since).length using
    Nat.strongRecOn generalizing since with
  | ind length hShorter =>
      cases hLast :
          ((tables.unread since).take limit.toNat).getLast? with
      | none =>
          have hNone := List.getLast?_eq_none_iff.mp hLast
          have hEmpty : tables.unread since = [] := by
            rcases List.take_eq_nil_iff.mp hNone with
              hZero | hEmpty
            · omega
            · exact hEmpty
          have hEnd := hPage since
          rw [hNone] at hEnd
          refine ⟨[], .done hEnd, List.nil_sublist _, ?_⟩
          rw [hEmpty]
          simp [Uncut]
      | some last =>
          have hDropped := unread_sublist_drop hLast
          have hFewer :
              (tables.unread last.txid).length < length := by
            have hMem := List.mem_of_getLast? hLast
            have hSome :=
              List.length_pos_of_mem (List.mem_of_mem_take hMem)
            have hRemain := hDropped.length_le
            rw [List.length_drop] at hRemain
            omega
          rcases hShorter _ hFewer last.txid rfl with
            ⟨others, hPolls, hOthers, hWhole⟩
          refine ⟨_, .page (hPage since) hLast hPolls, ?_,
            page_append_eq_iff hSize hLast hOthers hWhole⟩
          have hBoth :=
            (List.Sublist.refl
              ((tables.unread since).take limit.toNat)).append
              (hOthers.trans hDropped)
          rw [List.take_append_drop] at hBoth
          exact hBoth

/- Without a limit, the first page holds everything. -/
theorem exists_polls_unlimited
    (hRead : ∀ since,
      tables.changesSince since limit =
        .ok (Window.limited limit (tables.unread since)))
    (hSigned : Window.signed limit < 0)
    (since : Int) :
    Polls tables limit since (tables.unread since) := by
  have hPage :
      ∀ since,
        tables.changesSince since limit =
          .ok (tables.unread since) := by
    intro since
    rw [hRead, Window.limited, if_pos hSigned]
  cases hLast : (tables.unread since).getLast? with
  | none =>
      have hEmpty := List.getLast?_eq_none_iff.mp hLast
      have hEnd := hPage since
      rw [hEmpty] at hEnd ⊢
      exact .done hEnd
  | some last =>
      have hRest : tables.unread last.txid = [] :=
        unread_of_page (List.append_nil _).symm hLast
      have hEnd := hPage last.txid
      rw [hRest] at hEnd
      have hPolls := Polls.page (hPage since) hLast (.done hEnd)
      rw [List.append_nil] at hPolls
      exact hPolls

end Tables

------------------------------------------------------------
-- Stores
------------------------------------------------------------

namespace Store

open Tables

variable {store : Store}

/- The transactions of all changes count from one. -/
theorem Reachable.txid_pos
    (hReachable : store.Reachable)
    {change : Change}
    (hChange : change ∈ store.tables.changes) :
    0 < change.txid := by
  have hLogged := hReachable.logged.2
  have hNumbered := hReachable.numbered
  rcases hLogged.exists_tuple hChange ⟨rfl, rfl⟩ with
    ⟨tuple, hTuple, _, hTxid⟩
  have hPositive := hNumbered.positive tuple hTuple
  cases hOperation : change.operation with
  | write =>
      rw [hOperation, hLogged.written tuple hTuple,
        List.mem_singleton] at hTxid
      omega
  | delete =>
      rw [hOperation, hLogged.deleted tuple hTuple,
        Option.mem_toList] at hTxid
      have hLargest : 0 < Numeral.largestInt64 := by decide
      have hOrdered := hNumbered.ordered tuple hTuple _ hTxid
      omega

/-
  A reader who starts at the beginning comes to an end and
  receives no change twice. All changes are received exactly
  if no page ends within a transaction.
-/
theorem polls_all_iff
    {limit : UInt64}
    (hReachable : store.Reachable)
    (hLimit : limit ≠ 0) :
    ∃ received,
      Polls store.tables limit 0 received ∧
        (∀ other,
          Polls store.tables limit 0 other →
            other = received) ∧
        received.Sublist store.tables.log ∧
        (received.Perm store.tables.changes ↔
          Window.signed limit < 0 ∨
            Uncut limit.toNat store.tables.log) := by
  have hSteady := hReachable.steady
  have hRead :=
    fun since =>
      changesSince_eq hSteady.sound hSteady.missing since limit
  have hStart : store.tables.unread 0 = store.tables.log := by
    unfold unread
    rw [List.filter_eq_self]
    intro change hChange
    apply decide_eq_true
    exact hReachable.txid_pos (log_perm.mem_iff.mp hChange)
  have hFull :
      ∀ received : List Change,
        received.Sublist store.tables.log →
          (received.Perm store.tables.changes ↔
            received = store.tables.log) := by
    intro received hSublist
    constructor
    · intro hPerm
      apply hSublist.eq_of_length
      rw [hPerm.length_eq, log_perm.length_eq]
    · intro hSame
      rw [hSame]
      exact log_perm
  by_cases hSigned : Window.signed limit < 0
  · have hPolls := exists_polls_unlimited hRead hSigned 0
    rw [hStart] at hPolls
    refine ⟨_, hPolls, ?_, List.Sublist.refl _, ?_⟩
    · intro other hOther
      exact hOther.unique hPolls
    · simp [hSigned, log_perm]
  · rcases exists_polls hRead hLimit hSigned 0 with
      ⟨received, hPolls, hSublist, hWhole⟩
    rw [hStart] at hSublist hWhole
    refine ⟨received, hPolls, ?_, hSublist, ?_⟩
    · intro other hOther
      exact hOther.unique hPolls
    · rw [hFull received hSublist, hWhole]
      simp [hSigned]

end Store

------------------------------------------------------------
-- Examples
------------------------------------------------------------

namespace Sharing

open Tables

/- Both editors are written in one transaction. -/
def pair : Store :=
  store.run [.write 1000 [alice, team] []]

theorem pair_reachable : pair.Reachable :=
  (Store.Reachable.blank store_blank).run _

theorem pair_changes :
    ∃ first second,
      pair.tables.changes = [first, second] ∧
        pair.tables.log = [first, second] ∧
        first.txid = 1 ∧ second.txid = 1 := by
  have hLength : pair.tables.changes.length = 2 := by
    decide +kernel
  have hTxids :
      pair.tables.changes.map Change.txid = [1, 1] := by
    decide +kernel
  have hSorted :
      pair.tables.changes.Pairwise fun first second =>
        first.precedes second = true := by
    decide +kernel
  have hLog : pair.tables.log = pair.tables.changes :=
    List.mergeSort_of_pairwise hSorted
  rcases List.length_eq_two.mp hLength with
    ⟨first, second, hChanges⟩
  rw [hChanges] at hTxids hLog
  simp only [List.map_cons, List.map_nil, List.cons.injEq,
    and_true] at hTxids
  exact ⟨first, second, hChanges, hLog, hTxids⟩

/- Pages of two entries hold the whole transaction. -/
theorem pair_received :
    pair.Reachable ∧ (2 : UInt64) ≠ 0 ∧
      ∃ received,
        Polls pair.tables 2 0 received ∧
          received.Perm pair.tables.changes := by
  have hLimit : (2 : UInt64) ≠ 0 := by decide
  rcases Store.polls_all_iff pair_reachable hLimit with
    ⟨received, hPolls, _, _, hAll⟩
  have hUncut : Uncut 2 pair.tables.log := by
    rcases pair_changes with ⟨first, second, _, hLog, _⟩
    intro pages hPages before after _ hAfter
    have hBeyond : pages * 2 < 2 := by
      have hSome := (List.getElem?_eq_some_iff.mp hAfter).1
      rw [hLog] at hSome
      exact hSome
    omega
  exact ⟨pair_reachable, hLimit, received, hPolls,
    hAll.mpr (.inr hUncut)⟩

/- Pages of a single entry lose the second one. -/
theorem pair_cut :
    ¬ ∀ (store : Store) (limit : UInt64),
      store.Reachable → limit ≠ 0 →
        ∀ received, Polls store.tables limit 0 received →
          received.Perm store.tables.changes := by
  intro hClaim
  have hSteady := pair_reachable.steady
  have hRead :=
    fun since =>
      changesSince_eq hSteady.sound hSteady.missing since 1
  rcases pair_changes with
    ⟨first, second, hChanges, hLog, hFirst, hSecond⟩
  have hSigned : ¬ Window.signed 1 < 0 := by decide
  have hPage :
      pair.tables.changesSince 0 1 = .ok [first] := by
    rw [hRead, unread, hLog, Window.limited, if_neg hSigned]
    simp [hFirst]
  have hEnd :
      pair.tables.changesSince first.txid 1 = .ok [] := by
    rw [hRead, unread, hLog, Window.limited, if_neg hSigned]
    simp [hFirst, hSecond]
  have hPolls := Polls.page hPage rfl (.done hEnd)
  have hAll := hClaim pair 1 pair_reachable (by decide) _ hPolls
  rw [hChanges] at hAll
  have hLength := hAll.length_eq
  cases hLength

end Sharing

end Rebac
