import Mathlib.Logic.Relation
import Rebac.Proofs.Store.History

/-
  This file proves that a batch that fails leaves no trace,
  wherever it fails.

  Any statement of a batch may fail for reasons that are not
  in the tables: the file may be locked, or the disk full.
  So a batch is told once more as a script of its statements,
  of which an outage makes some fail. Without an outage the
  script is the batch.

  Key definitions include:
    * `Store.Script`
    * `Store.Script.perform`
    * `Store.Outage`
    * `Store.Script.carryOut`
    * `Store.transactionDuring`
    * `Store.writeDuring`
    * `Store.FailedWrite`

  Key theorems include:
    * `Store.writeDuring_calm`
    * `Store.writeDuring_error`
    * `Store.no_trace_of_failed`
-/

namespace Rebac

namespace Store

variable {First Second Result : Type}

------------------------------------------------------------
-- Scripts
------------------------------------------------------------

/-
  Statements that are carried out one after the other. What a
  statement finds decides how the script goes on.
-/
inductive Script (Result : Type) : Type 1 where
  | finish (result : Result)
  | statement {Found : Type}
      (action : Action Found)
      (next : Found → Script Result)

namespace Script

/- The second script goes on where the first one finishes. -/
def bind : Script First → (First → Script Second) → Script Second
  | .finish result, next => next result
  | .statement action rest, next =>
      .statement action fun found => (rest found).bind next

instance : Monad Script where
  pure := .finish
  bind := bind

/- The script of a single statement. -/
def call (action : Action Result) : Script Result :=
  .statement action .finish

/- Runs a script for each element and adds up the results. -/
def total
    {Element : Type}
    (script : Element → Script Nat) :
    List Element → Script Nat
  | [] => return 0
  | element :: others => do
      let first ← script element
      let rest ← total script others
      return first + rest

/- Carries out a script, none of whose statements is upset. -/
def perform : Script Result → Action Result
  | .finish result => pure result
  | .statement action next => do
      let found ← action
      (next found).perform

@[simp] theorem perform_pure (result : Result) :
    (pure result : Script Result).perform = pure result := rfl

@[simp] theorem perform_call (action : Action Result) :
    (call action).perform = action := by
  rw [call, perform]
  exact bind_pure (m := ExceptT StoreError (StateM Store)) action

@[simp] theorem perform_bind
    (first : Script First)
    (next : First → Script Second) :
    (first >>= next).perform =
      first.perform >>= fun result => (next result).perform := by
  induction first with
  | finish result => rfl
  | statement action rest hRest =>
      have hStep :
          (Script.statement action rest >>= next).perform =
            action >>= fun found =>
              (rest found >>= next).perform := rfl
      rw [hStep, perform, bind_assoc]
      exact congrArg (action >>= ·) (funext hRest)

@[simp] theorem perform_forM
    {Element : Type}
    (script : Element → Script PUnit)
    (elements : List Element) :
    (elements.forM script).perform =
      elements.forM fun element => (script element).perform := by
  induction elements with
  | nil => rfl
  | cons element others hOthers =>
      rw [List.forM, List.forM, perform_bind, hOthers]

@[simp] theorem perform_total
    {Element : Type}
    (script : Element → Script Nat)
    (elements : List Element) :
    (total script elements).perform =
      Store.total (fun element => (script element).perform)
        elements := by
  induction elements with
  | nil => rfl
  | cons element others hOthers =>
      simp only [total, Store.total, perform_bind, perform_pure,
        hOthers]

end Script

------------------------------------------------------------
-- Batches
------------------------------------------------------------

namespace Script

/- Takes the number of the next transaction. -/
def nextTxid : Script Int := do
  call do
    query fun tables => tables.require .sequence
    query fun tables => tables.permit .sequence .update
    change fun tables =>
      { tables with last := following tables.last }
  call (query fun tables => .ok tables.last)

/- Marks a tuple as deleted and logs it. -/
def markDeleted (txid now : Int) (id : Bytes) : Script Unit := do
  call do
    query fun tables => tables.permit .tuples .update
    change fun tables =>
      { tables with
        tuples := tables.tuples.map fun tuple =>
          if tuple.id = id then
            { tuple with deleted := some txid }
          else
            tuple }
  call (logChange .delete id txid now)

/- Looks for the live tuples with the given parts. -/
def probe (parts : TupleKey.Parts) : Script (List StoredTuple) :=
  call do
    query fun tables => tables.require .tuples
    query fun tables => .ok (tables.liveWith parts)

/- Deletes the live tuple of a key and counts it. -/
def deleteTuple
    (txid now : Int)
    (parts : TupleKey.Parts) : Script Nat := do
  let live ← probe parts
  live.forM fun tuple => markDeleted txid now tuple.id
  return live.length

/- Inserts a tuple and logs it. -/
def insertTuple
    (txid now : Int)
    (parts : TupleKey.Parts) : Script Unit := do
  let id ← call do
    let id ← drawId now
    query fun tables => tables.permit .tuples .insert
    query fun tables =>
      if tables.tuples.any fun tuple => tuple.id = id then
        .error (.database (.repeatedId .tuples))
      else
        .ok ()
    change fun tables =>
      { tables with
        tuples := tables.tuples ++
          [{ id := id
             parts := parts
             created := txid
             deleted := none
             time := now }] }
    return id
  call (logChange .write id txid now)

/- Writes a tuple unless it is there, and counts it. -/
def writeTuple
    (txid now : Int)
    (parts : TupleKey.Parts) : Script Nat := do
  let live ← probe parts
  if live.isEmpty then
    insertTuple txid now parts
    return 1
  else
    return 0

/- Changes the tuples in the next transaction. -/
def batch
    (now : Int)
    (additions removals : List TupleKey.Parts) :
    Script Receipt := do
  let txid ← nextTxid
  let deleted ← total (deleteTuple txid now) removals
  let written ← total (writeTuple txid now) additions
  return { txid := txid, written := written, deleted := deleted }

variable {txid now : Int}

theorem perform_nextTxid :
    nextTxid.perform = Store.nextTxid := by
  simp only [nextTxid, Store.nextTxid, perform_bind,
    perform_call, bind_assoc]

theorem perform_deleteTuple (parts : TupleKey.Parts) :
    (deleteTuple txid now parts).perform =
      Store.deleteTuple txid now parts := by
  simp only [deleteTuple, probe, markDeleted, Store.deleteTuple,
    Store.markDeleted, perform_bind, perform_call, perform_forM,
    perform_pure, bind_assoc]

theorem perform_insertTuple (parts : TupleKey.Parts) :
    (insertTuple txid now parts).perform =
      Store.insertTuple txid now parts := by
  simp only [insertTuple, Store.insertTuple, perform_bind,
    perform_call, bind_assoc, pure_bind]

theorem perform_writeTuple (parts : TupleKey.Parts) :
    (writeTuple txid now parts).perform =
      Store.writeTuple txid now parts := by
  simp only [writeTuple, probe, Store.writeTuple, perform_bind,
    perform_call, bind_assoc]
  congr
  funext _
  congr
  funext live
  split
  · rw [perform_bind, perform_insertTuple, perform_pure]
  · rfl

/- The script of a batch is the batch. -/
theorem perform_batch
    (additions removals : List TupleKey.Parts) :
    (batch now additions removals).perform =
      Store.batch now additions removals := by
  simp only [batch, Store.batch, alter, perform_bind,
    perform_nextTxid, perform_total, perform_deleteTuple,
    perform_writeTuple, perform_pure]

end Script

------------------------------------------------------------
-- Outages
------------------------------------------------------------

/-
  How a statement fails: with an error, and after it has done
  something or nothing to the tables.
-/
structure Failure where
  error : StoreError
  damage : Tables → Tables := id

/-
  Which statements of a transaction fail: the one that opens
  it, those in between, counted from zero, and the one that
  commits it. A transaction that is not opened damages no
  table.
-/
structure Outage where
  begin : Option StoreError := none
  statements : Nat → Option Failure := fun _ => none
  commit : Option Failure := none

/- Carries out a statement, unless it fails. -/
def attempt
    (failure : Option Failure)
    (action : Action Result) : Action Result :=
  match failure with
  | none => action
  | some failure => do
      change failure.damage
      throw failure.error

/- Carries out a script up to the first statement that fails. -/
def Script.carryOut
    (failures : Nat → Option Failure) :
    (index : Nat) → Script Result → Action Result
  | _, .finish result => pure result
  | index, .statement action next => do
      let found ← attempt (failures index) action
      (next found).carryOut failures (index + 1)

/- Runs a script as a whole, during an outage. -/
def transactionDuring
    (outage : Outage)
    (script : Script Result) : Action Result :=
  fun store =>
    let opening := outage.begin.map fun error => { error }
    match (attempt opening (manage Database.begin)).run store with
    | (.error error, store) => (.error error, store)
    | (.ok _, store) =>
        match (script.carryOut outage.statements 0).run store with
        | (.error error, store) => (.error error, store.abandon)
        | (.ok result, store) =>
            match (attempt outage.commit
                (manage Database.commit)).run store with
            | (.error error, store) =>
                (.error error, store.abandon)
            | (.ok _, store) => (.ok result, store)

/- Writes and deletes tuples during an outage. -/
def writeDuring
    (outage : Outage)
    (now : Int)
    (writes deletes : List TupleKey) : Action Receipt := do
  let additions ← query fun _ => checkKeys writes
  let removals ← query fun _ => checkKeys deletes
  transactionDuring outage (Script.batch now additions removals)

------------------------------------------------------------
-- Without a Failure
------------------------------------------------------------

variable {script : Script Result}
variable {store after : Store}
variable {outage : Outage}
variable {now : Int}
variable {writes deletes : List TupleKey}

/- A statement that is carried out has not failed. -/
theorem attempt_ok
    {failure : Option Failure}
    {action : Action Result}
    {result : Result}
    (hRun :
      (attempt failure action).run store =
        (.ok result, after)) :
    failure = none ∧ action.run store = (.ok result, after) := by
  cases failure with
  | none => exact ⟨rfl, hRun⟩
  | some failure => cases (Prod.mk.inj hRun).1

/- A script that is carried out to its end is performed. -/
theorem Script.carryOut_ok
    {failures : Nat → Option Failure}
    {index : Nat}
    {result : Result}
    (hRun :
      (script.carryOut failures index).run store =
        (.ok result, after)) :
    script.perform.run store = (.ok result, after) := by
  induction script generalizing index store with
  | finish found => exact hRun
  | statement action next hNext =>
      rcases Action.exists_of_run_bind hRun with
        ⟨found, middle, hAction, hRest⟩
      rw [perform, Action.run_bind, (attempt_ok hAction).2]
      exact hNext found hRest

/- Without failures, a script is performed. -/
theorem Script.carryOut_calm (index : Nat) :
    script.carryOut (fun _ => none) index = script.perform := by
  induction script generalizing index with
  | finish result => rfl
  | statement action next hNext =>
      rw [carryOut, perform]
      exact congrArg (action >>= ·)
        (funext fun found => hNext found (index + 1))

/- A batch during no outage is a batch. -/
theorem writeDuring_calm :
    writeDuring {} now writes deletes =
      write now writes deletes := by
  have hBody : ∀ additions removals,
      transactionDuring {} (Script.batch now additions removals) =
        transaction (batch now additions removals) := by
    intro additions removals
    rw [← Script.perform_batch, ← Script.carryOut_calm 0]
    rfl
  unfold writeDuring
  simp only [hBody]
  rfl

/- A transaction that succeeds has not noticed the outage. -/
theorem transactionDuring_ok
    {result : Result}
    (hRun :
      (transactionDuring outage script).run store =
        (.ok result, after)) :
    (transaction script.perform).run store =
      (.ok result, after) := by
  simp only [transactionDuring, transaction, ExceptT.run]
    at hRun ⊢
  split at hRun
  · cases hRun
  · next opened hOpening =>
      have hOpened :
          manage Database.begin store = (.ok (), opened) :=
        (attempt_ok hOpening).2
      rw [hOpened]
      dsimp only
      split at hRun
      · cases hRun
      · next found inner hBody =>
          have hPerformed :
              script.perform opened = (.ok found, inner) :=
            Script.carryOut_ok hBody
          rw [hPerformed]
          dsimp only
          split at hRun
          · cases hRun
          · next closed hClosing =>
              have hClosed :
                  manage Database.commit inner =
                    (.ok (), closed) :=
                (attempt_ok hClosing).2
              rw [hClosed]
              exact hRun

/- A batch that succeeds has not noticed the outage. -/
theorem writeDuring_ok
    {receipt : Receipt}
    (hRun :
      (writeDuring outage now writes deletes).run store =
        (.ok receipt, after)) :
    (write now writes deletes).run store =
      (.ok receipt, after) := by
  rcases Action.exists_of_run_bind hRun with
    ⟨additions, _, hAdditions, hRest⟩
  rcases Action.exists_of_run_bind hRest with
    ⟨removals, _, hRemovals, hBatch⟩
  have hWritten := transactionDuring_ok hBatch
  rw [Script.perform_batch] at hWritten
  rw [write, Action.run_bind, hAdditions]
  dsimp only
  rw [Action.run_bind, hRemovals]
  exact hWritten

------------------------------------------------------------
-- After a Failure
------------------------------------------------------------

/- A store in the transaction that started from the tables. -/
abbrev Open (before : Tables) (store : Store) : Prop :=
  store.database.saved = some before

variable {before : Tables}

/- A transaction that is given up leaves what it started from. -/
theorem abandon_of_open
    (hOpen : store.Open before) :
    store.abandon.database = { tables := before } := by
  rw [abandon, Database.rollBack, hOpen]

/- No statement of a script ends the transaction. -/
def Script.StaysOpen : Script Result → Prop
  | .finish _ => True
  | .statement action next =>
      (∀ before, action.Preserves (Open before)) ∧
        ∀ found, (next found).StaysOpen

namespace Script

theorem StaysOpen.call
    {action : Action Result}
    (hAction : ∀ before, action.Preserves (Open before)) :
    (call action).StaysOpen :=
  ⟨hAction, fun _ => trivial⟩

theorem StaysOpen.bind
    {first : Script First}
    {next : First → Script Second}
    (hFirst : first.StaysOpen)
    (hNext : ∀ result, (next result).StaysOpen) :
    (first >>= next).StaysOpen := by
  induction first with
  | finish result => exact hNext result
  | statement action rest hRest =>
      exact ⟨hFirst.1, fun found => hRest found (hFirst.2 found)⟩

theorem StaysOpen.forM
    {Element : Type}
    {script : Element → Script PUnit}
    (hScript : ∀ element, (script element).StaysOpen)
    (elements : List Element) :
    (elements.forM script).StaysOpen := by
  induction elements with
  | nil => trivial
  | cons element others hOthers =>
      exact (hScript element).bind fun _ => hOthers

theorem StaysOpen.total
    {Element : Type}
    {script : Element → Script Nat}
    (hScript : ∀ element, (script element).StaysOpen)
    (elements : List Element) :
    (total script elements).StaysOpen := by
  induction elements with
  | nil => trivial
  | cons element others hOthers =>
      exact (hScript element).bind fun _ =>
        hOthers.bind fun _ => trivial

/- A script that fails half-way leaves its transaction open. -/
theorem StaysOpen.carryOut
    {failures : Nat → Option Failure}
    (hScript : script.StaysOpen)
    (index : Nat) :
    (script.carryOut failures index).Preserves (Open before) := by
  induction script generalizing index with
  | finish result => exact Action.Preserves.pure result
  | statement action next hNext =>
      rw [Script.carryOut]
      refine Action.Preserves.bind ?_ fun found =>
        hNext found (hScript.2 found) (index + 1)
      cases failures index with
      | none => exact hScript.1 before
      | some failure => exact fun _ hOpen => hOpen

theorem nextTxid_staysOpen : nextTxid.StaysOpen := by
  refine (StaysOpen.call fun before => ?_).bind fun _ =>
    StaysOpen.call fun before => Action.Preserves.query _
  refine (Action.Preserves.query _).bind fun _ => ?_
  refine (Action.Preserves.query _).bind fun _ => ?_
  exact fun _ hOpen => hOpen

theorem logChange_staysOpen
    (operation : Operation)
    (id : Bytes)
    (txid now : Int) :
    (call (logChange operation id txid now)).StaysOpen :=
  StaysOpen.call fun before =>
    (batchInvariant_saved before).logChange operation id

theorem markDeleted_staysOpen (txid now : Int) (id : Bytes) :
    (markDeleted txid now id).StaysOpen := by
  refine (StaysOpen.call fun before => ?_).bind fun _ =>
    logChange_staysOpen .delete id txid now
  refine (Action.Preserves.query _).bind fun _ => ?_
  exact fun _ hOpen => hOpen

theorem probe_staysOpen (parts : TupleKey.Parts) :
    (probe parts).StaysOpen :=
  StaysOpen.call fun _ =>
    (Action.Preserves.query _).bind fun _ =>
      Action.Preserves.query _

theorem deleteTuple_staysOpen
    (txid now : Int)
    (parts : TupleKey.Parts) :
    (deleteTuple txid now parts).StaysOpen := by
  refine (probe_staysOpen parts).bind fun live => ?_
  refine StaysOpen.bind ?_ fun _ => trivial
  exact StaysOpen.forM
    (fun tuple => markDeleted_staysOpen txid now tuple.id) live

theorem insertTuple_staysOpen
    (txid now : Int)
    (parts : TupleKey.Parts) :
    (insertTuple txid now parts).StaysOpen := by
  refine (StaysOpen.call fun before => ?_).bind fun id =>
    logChange_staysOpen .write id txid now
  refine Action.Preserves.bind ?_ fun _ => ?_
  · exact Action.Preserves.drawId fun _ _ hOpen => hOpen
  refine (Action.Preserves.query _).bind fun _ => ?_
  refine (Action.Preserves.query _).bind fun _ => ?_
  exact fun _ hOpen => hOpen

theorem writeTuple_staysOpen
    (txid now : Int)
    (parts : TupleKey.Parts) :
    (writeTuple txid now parts).StaysOpen := by
  refine (probe_staysOpen parts).bind fun live => ?_
  split
  · exact (insertTuple_staysOpen txid now parts).bind fun _ =>
      trivial
  · trivial

/- No statement of a batch ends its transaction. -/
theorem batch_staysOpen
    (now : Int)
    (additions removals : List TupleKey.Parts) :
    (batch now additions removals).StaysOpen := by
  refine nextTxid_staysOpen.bind fun txid => ?_
  refine StaysOpen.bind ?_ fun deleted =>
    StaysOpen.bind ?_ fun written => trivial
  · exact StaysOpen.total (deleteTuple_staysOpen txid now)
      removals
  · exact StaysOpen.total (writeTuple_staysOpen txid now)
      additions

end Script

/- A transaction is only opened where none is open. -/
theorem open_of_begin
    {store opened : Store}
    (hBegin :
      (manage Database.begin).run store = (.ok (), opened)) :
    store.database = { tables := store.tables } ∧
      opened.Open store.tables := by
  rcases store with ⟨⟨tables, _ | saved⟩, ids⟩
  · cases hBegin
    exact ⟨rfl, rfl⟩
  · cases hBegin

/- A transaction that is not opened changes nothing. -/
theorem database_of_unopened
    {refusal : Option StoreError}
    {error : StoreError}
    (hRun :
      (attempt (refusal.map fun error => { error })
        (manage Database.begin)).run store =
          (.error error, after)) :
    after.database = store.database := by
  cases refusal with
  | none =>
      rcases store with ⟨⟨tables, _ | saved⟩, ids⟩
      · cases hRun
      · cases hRun
        rfl
  | some refused =>
      cases hRun
      rfl

/- A transaction that is not committed is still open. -/
theorem open_of_uncommitted
    {failure : Option Failure}
    {error : StoreError}
    (hOpen : store.Open before)
    (hRun :
      (attempt failure (manage Database.commit)).run store =
        (.error error, after)) :
    after.Open before := by
  rcases store with ⟨⟨tables, saved⟩, ids⟩
  cases hOpen
  cases failure with
  | none => cases hRun
  | some failed =>
      cases hRun
      rfl

/-
  Wherever a transaction fails, the database is as it was: it
  was not opened, or it is rolled back.
-/
theorem transactionDuring_error
    {error : StoreError}
    (hScript : script.StaysOpen)
    (hRun :
      (transactionDuring outage script).run store =
        (.error error, after)) :
    after.database = store.database := by
  simp only [transactionDuring, ExceptT.run] at hRun
  split at hRun
  · next refused unopened hOpening =>
      cases hRun
      exact database_of_unopened hOpening
  · next opened hOpening =>
      rcases open_of_begin (attempt_ok hOpening).2 with
        ⟨hStart, hOpen⟩
      split at hRun
      · next failed inner hBody =>
          have hInner : inner.Open store.tables :=
            (hScript.carryOut 0).of_run hBody hOpen
          cases hRun
          rw [hStart]
          exact abandon_of_open hInner
      · next found inner hBody =>
          have hInner : inner.Open store.tables :=
            (hScript.carryOut 0).of_run hBody hOpen
          split at hRun
          · next failed uncommitted hClosing =>
              have hLeft : uncommitted.Open store.tables :=
                open_of_uncommitted hInner hClosing
              cases hRun
              rw [hStart]
              exact abandon_of_open hLeft
          · cases hRun

/- A batch that fails leaves the database as it was. -/
theorem writeDuring_error
    {error : StoreError}
    (hRun :
      (writeDuring outage now writes deletes).run store =
        (.error error, after)) :
    after.database = store.database := by
  rw [writeDuring, Action.run_bind] at hRun
  split at hRun
  · next refused middle hWrites =>
      cases (Prod.mk.inj hWrites).2
      cases hRun
      rfl
  · next additions middle hWrites =>
      rcases Action.eq_of_run_query hWrites with ⟨_, rfl⟩
      rw [Action.run_bind] at hRun
      split at hRun
      · next refused middle hDeletes =>
          cases (Prod.mk.inj hDeletes).2
          cases hRun
          rfl
      · next removals middle hDeletes =>
          rcases Action.eq_of_run_query hDeletes with ⟨_, rfl⟩
          exact transactionDuring_error
            (Script.batch_staysOpen now additions removals) hRun

/- An action leaves a store, whatever its result is. -/
theorem Action.run_of_result
    {action : Action Result}
    {result : Except StoreError Result}
    (hResult : (action.run store).1 = result) :
    action.run store = (result, (action.run store).2) :=
  Prod.ext hResult rfl

/- A transaction only succeeds where none is open. -/
theorem idle_of_transaction
    {body : Action Result}
    {result : Result}
    (hRun :
      (transaction body).run store = (.ok result, after)) :
    store.database.saved = none := by
  rcases store with ⟨⟨tables, _ | saved⟩, ids⟩
  · rfl
  · cases (Prod.mk.inj hRun).1

/- The number of a batch that succeeds follows the last one. -/
theorem txid_of_written
    {receipt : Receipt}
    (hRun :
      (write now writes deletes).run store =
        (.ok receipt, after)) :
    receipt.txid = following store.tables.last := by
  have hIdle : store.database.saved = none := by
    rcases Action.exists_of_run_bind hRun with
      ⟨_, middle, hAdditions, hRest⟩
    rcases Action.exists_of_run_bind hRest with
      ⟨_, last, hRemovals, hBatch⟩
    rcases Action.eq_of_run_query hAdditions with ⟨_, rfl⟩
    rcases Action.eq_of_run_query hRemovals with ⟨_, rfl⟩
    exact idle_of_transaction hBatch
  rcases write_cases now writes deletes hIdle with
    ⟨_, _, hFailed, _⟩ | ⟨_, _, _, _, _, _, hAlter, hWritten⟩
  · rw [hRun] at hFailed
    cases (Prod.mk.inj hFailed).1
  · rw [hRun] at hWritten
    cases Except.ok.inj (Prod.mk.inj hWritten).1
    rcases Action.exists_of_run_bind hAlter with
      ⟨_, _, _, hRest⟩
    rcases Action.exists_of_run_bind hRest with
      ⟨_, _, _, hReceipt⟩
    cases Except.ok.inj (Prod.mk.inj hReceipt).1
    rfl

/- A batch that failed, during an outage or not. -/
def FailedWrite (before after : Store) : Prop :=
  ∃ outage now writes deletes error,
    (writeDuring outage now writes deletes).run before =
      (.error error, after)

/- However many batches fail, the database is as it was. -/
theorem database_of_failed
    {later : Store}
    (hFailed : Relation.ReflTransGen FailedWrite store later) :
    later.database = store.database := by
  induction hFailed with
  | refl => rfl
  | tail _ hLast hSame =>
      rcases hLast with ⟨_, _, _, _, _, hRun⟩
      exact (writeDuring_error hRun).trans hSame

/-
  A batch that fails, at whichever of its statements, leaves
  the database as it was. The next batch that succeeds has the
  number that it would have had without those that failed.
-/
theorem no_trace_of_failed
    {error : StoreError}
    (hRun :
      (writeDuring outage now writes deletes).run store =
        (.error error, after)) :
    after.database = store.database ∧
      ∀ later, Relation.ReflTransGen FailedWrite after later →
        later.database = store.database ∧
        ∀ outage now writes deletes receipt last,
          (writeDuring outage now writes deletes).run later =
              (.ok receipt, last) →
            receipt.txid = following store.tables.last ∧
            ∀ outage now writes deletes expected other,
              (writeDuring outage now writes deletes).run store =
                  (.ok expected, other) →
                receipt.txid = expected.txid := by
  have hSame := writeDuring_error hRun
  refine ⟨hSame, fun later hFailed => ?_⟩
  have hLater : later.database = store.database :=
    (database_of_failed hFailed).trans hSame
  refine ⟨hLater, ?_⟩
  intro _ _ _ _ receipt _ hWritten
  have hNext : receipt.txid = following store.tables.last := by
    rw [txid_of_written (writeDuring_ok hWritten), tables, hLater]
    rfl
  refine ⟨hNext, ?_⟩
  intro _ _ _ _ expected _ hExpected
  rw [hNext, txid_of_written (writeDuring_ok hExpected)]

end Store

------------------------------------------------------------
-- An Example
------------------------------------------------------------

namespace Sharing

/- The last statement of a batch, which logs a tuple, fails. -/
def unlogged : Store.Outage :=
  { statements := fun index =>
      if index = 7 then
        some { error := .database .blocked }
      else
        none }

/- By then a tuple is deleted, and another one inserted. -/
def interrupted : Store :=
  ((Store.writeDuring unlogged 2000 [team] [alice]).run shared).2

theorem interrupted_error :
    (Store.writeDuring unlogged 2000 [team] [alice]).run shared =
      (.error (.database .blocked), interrupted) :=
  Store.Action.run_of_result (by decide +kernel)

theorem interrupted_receipt :
    ((Store.writeDuring {} 3000 [team] [alice]).run
      interrupted).1 = .ok ⟨2, 1, 1⟩ := by
  decide +kernel

theorem interrupted_no_trace :
    (Store.writeDuring unlogged 2000 [team] [alice]).run shared =
        (.error (.database .blocked), interrupted) ∧
      interrupted.database = shared.database ∧
      ∃ receipt last,
        (Store.writeDuring {} 3000 [team] [alice]).run
            interrupted = (.ok receipt, last) ∧
          receipt.txid = Store.following shared.tables.last := by
  rcases Store.no_trace_of_failed interrupted_error with
    ⟨hSame, hLater⟩
  have hRun := Store.Action.run_of_result interrupted_receipt
  have hNext := (hLater interrupted .refl).2 _ _ _ _ _ _ hRun
  exact ⟨interrupted_error, hSame, _, _, hRun, hNext.1⟩

end Sharing

end Rebac
