import Rebac.Proofs.Store.Batch
import Rebac.Proofs.Store.Models

/-
  This file defines what can happen to a store, and proves
  what is left true of every store that anything has happened
  to.

  Batches are written at any times, models are stored and
  activated, and statements may start to fail and succeed
  again in between. Only a batch that succeeds changes the
  tuples, the log of changes and the last transaction.

  Key definitions include:
    * `Tables.SameRows`
    * `Store.Blank`
    * `Store.Event`
    * `Store.perform`
    * `Store.run`
    * `Store.ruled`
    * `Store.Reachable`
    * `Store.Steady`

  Key theorems include:
    * `Store.perform_cases`
    * `Store.Reachable.steady`
    * `Store.Reachable.keeps`
-/

namespace Rebac

/-
  Tables with the same tuples, changes and transactions.
  Their models and rules may differ.
-/
structure Tables.SameRows (before after : Tables) : Prop where
  tuples : after.tuples = before.tuples
  changes : after.changes = before.changes
  last : after.last = before.last
  missing : after.missing = before.missing

namespace Tables

variable {before after : Tables}

theorem SameRows.sound
    (hSame : SameRows before after)
    (hSound : before.Sound) :
    after.Sound := by
  constructor
  · rw [hSame.tuples]
    exact hSound.ids
  · rw [hSame.changes]
    exact hSound.entries
  · rw [hSame.tuples]
    exact hSound.valid
  · rw [hSame.tuples]
    exact hSound.keys

theorem SameRows.timely
    (hSame : SameRows before after)
    (hTimely : before.Timely) :
    after.Timely := by
  constructor
  · rw [hSame.last]
    exact hTimely.last
  · rw [hSame.tuples, hSame.last]
    exact hTimely.created
  · rw [hSame.tuples, hSame.last]
    exact hTimely.deleted

end Tables

namespace Store

open Tables

------------------------------------------------------------
-- Events
------------------------------------------------------------

/- A store whose tables are all there and have no rows yet. -/
structure Blank (store : Store) : Prop where
  idle : store.database.saved = none
  missing : store.tables.missing = []
  tuples : store.tables.tuples = []
  changes : store.tables.changes = []
  last : store.tables.last = 0

/- What can happen to a store. -/
inductive Event where
  | write (now : Int) (writes deletes : List TupleKey)
  | createModel (now : Int) (source : Bytes) (activate : Bool)
  | activateModel (id : Bytes)
  | block (table : Bytes) (statement : Statement)
  | unblock (table : Bytes) (statement : Statement)
  deriving DecidableEq, Repr

/- The store after an event, be it that it fails. -/
def perform (event : Event) (store : Store) : Store :=
  match event with
  | .write now writes deletes =>
      ((write now writes deletes).run store).2
  | .createModel now source activate =>
      ((createModel now source activate).run store).2
  | .activateModel id => ((activateModel id).run store).2
  | .block table statement =>
      ((manage fun database =>
        database.block table statement).run store).2
  | .unblock table statement =>
      ((manage fun database =>
        database.unblock table statement).run store).2

/- The store after some events. -/
def run : List Event → Store → Store
  | [], store => store
  | event :: others, store => run others (store.perform event)

/- A batch that succeeds leaves the store after its event. -/
theorem run_write
    {store : Store}
    {now : Int}
    {writes deletes : List TupleKey}
    {receipt : Receipt}
    (hReceipt :
      ((write now writes deletes).run store).1 = .ok receipt) :
    (write now writes deletes).run store =
      (.ok receipt,
        store.perform (.write now writes deletes)) :=
  Prod.ext hReceipt rfl

theorem run_append
    (earlier later : List Event)
    (store : Store) :
    store.run (earlier ++ later) =
      (store.run earlier).run later := by
  induction earlier generalizing store with
  | nil => rfl
  | cons event others hOthers => exact hOthers _

/- A store that a blank one has become. -/
inductive Reachable : Store → Prop where
  | blank
      {store : Store}
      (hBlank : store.Blank) :
      Reachable store
  | event
      {store : Store}
      (event : Event)
      (hReachable : Reachable store) :
      Reachable (store.perform event)

theorem Reachable.run
    {store : Store}
    (hReachable : store.Reachable)
    (events : List Event) :
    (store.run events).Reachable := by
  induction events generalizing store with
  | nil => exact hReachable
  | cons event others hOthers =>
      exact hOthers (hReachable.event event)

------------------------------------------------------------
-- Events and Rows
------------------------------------------------------------

variable {store : Store}

/- The database with other rules on its statements. -/
def ruled
    (rules : List (TableName × Statement))
    (database : Database) : Database :=
  database.change fun tables => { tables with blocked := rules }

/- A step on the rules only changes the rules. -/
theorem manage_ruled
    {step : Database → Except Database.Fault Database}
    (hStep : ∀ after, step store.database = .ok after →
      ∃ rules, after = ruled rules store.database) :
    ∃ rules,
      ((manage step).run store).2 =
        { store with
          database := ruled rules store.database } := by
  rcases hResult : step store.database with fault | after
  · refine ⟨store.tables.blocked, ?_⟩
    simp only [manage, ExceptT.run, hResult]
    rfl
  · rcases hStep after hResult with ⟨rules, rfl⟩
    refine ⟨rules, ?_⟩
    simp only [manage, ExceptT.run, hResult]

theorem block_ruled
    (table : Bytes)
    (statement : Statement)
    (store : Store) :
    ∃ rules,
      store.perform (.block table statement) =
        { store with
          database := ruled rules store.database } := by
  refine manage_ruled fun after hBlock => ?_
  unfold Database.block at hBlock
  split at hBlock
  · cases hBlock
  · split at hBlock
    · cases hBlock
    · cases hBlock
      exact ⟨_, rfl⟩

theorem unblock_ruled
    (table : Bytes)
    (statement : Statement)
    (store : Store) :
    ∃ rules,
      store.perform (.unblock table statement) =
        { store with
          database := ruled rules store.database } := by
  refine manage_ruled fun after hUnblock => ?_
  unfold Database.unblock at hUnblock
  extract_lets rules at hUnblock
  split at hUnblock
  · cases hUnblock
    exact ⟨_, rfl⟩
  · cases hUnblock

/- Only a batch that succeeds changes rows. -/
theorem perform_cases
    (event : Event)
    (hIdle : store.database.saved = none) :
    (∃ now writes deletes receipt,
      event = .write now writes deletes ∧
        (write now writes deletes).run store =
          (.ok receipt, store.perform event)) ∨
      Within none (SameRows store.tables)
        (store.perform event) := by
  have hModels : ∀ tables models,
      SameRows store.tables tables →
        SameRows store.tables { tables with models := models } :=
    fun _ _ hSame =>
      ⟨hSame.tuples, hSame.changes, hSame.last, hSame.missing⟩
  have hStart : Within none (SameRows store.tables) store :=
    ⟨hIdle, rfl, rfl, rfl, rfl⟩
  cases event with
  | write now writes deletes =>
      rcases hRun : (write now writes deletes).run store with
        ⟨error | receipt, after⟩
      · right
        have hAfter :
            store.perform (.write now writes deletes) = after :=
          congrArg Prod.snd hRun
        have hSame := write_error hIdle hRun
        rw [hAfter]
        unfold Within Store.tables
        rw [hSame]
        exact hStart
      · left
        have hAfter :
            store.perform (.write now writes deletes) = after :=
          congrArg Prod.snd hRun
        refine ⟨now, writes, deletes, receipt, rfl, ?_⟩
        rw [hAfter]
        exact hRun
  | createModel now source activate =>
      right
      exact createModel_preserves hModels now source activate
        store hStart
  | activateModel id =>
      right
      exact activateModel_preserves hModels id store hStart
  | block table statement =>
      right
      rcases block_ruled table statement store with
        ⟨rules, hRuled⟩
      rw [hRuled]
      exact ⟨hIdle, rfl, rfl, rfl, rfl⟩
  | unblock table statement =>
      right
      rcases unblock_ruled table statement store with
        ⟨rules, hRuled⟩
      rw [hRuled]
      exact ⟨hIdle, rfl, rfl, rfl, rfl⟩

------------------------------------------------------------
-- Invariants
------------------------------------------------------------

/- What holds of every store that something has happened to. -/
structure Steady (store : Store) : Prop where
  idle : store.database.saved = none
  missing : store.tables.missing = []
  sound : store.tables.Sound
  timely : store.tables.Timely

theorem Blank.steady
    (hBlank : store.Blank) :
    store.Steady where
  idle := hBlank.idle
  missing := hBlank.missing
  sound := by
    constructor
    · rw [hBlank.tuples]
      exact List.nodup_nil
    · rw [hBlank.changes]
      exact List.nodup_nil
    · simp [hBlank.tuples]
    · simp [hBlank.tuples]
  timely := by
    constructor
    · rw [hBlank.last]
      decide
    · simp [hBlank.tuples]
    · simp [hBlank.tuples]

theorem Steady.perform
    (hSteady : store.Steady)
    (event : Event) :
    (store.perform event).Steady := by
  rcases perform_cases event hSteady.idle with
    ⟨now, writes, deletes, receipt, _, hRun⟩ | ⟨hIdle, hSame⟩
  · rcases write_steady hSteady.idle hSteady.timely hRun with
      ⟨hIdle, hMissing, hTimely⟩
    rcases batch_of_write hSteady.idle hSteady.sound hRun with
      ⟨_, _, _, _, hBatch⟩
    exact
      { idle := hIdle
        missing := hMissing.trans hSteady.missing
        sound := hBatch.preserves sound_kept hSteady.sound.next
        timely := hTimely }
  · exact
      { idle := hIdle
        missing := hSame.missing.trans hSteady.missing
        sound := hSame.sound hSteady.sound
        timely := hSame.timely hSteady.timely }

theorem Reachable.steady
    (hReachable : store.Reachable) :
    store.Steady := by
  induction hReachable with
  | blank hBlank => exact hBlank.steady
  | event event _ hSteady => exact hSteady.perform event

/-
  What holds of tables without rows and is kept by every batch
  that succeeds, holds of every reachable store.
-/
theorem Reachable.keeps
    (Holds : Tables → Prop)
    (hReachable : store.Reachable)
    (hBlank : ∀ store : Store, store.Blank → Holds store.tables)
    (hSame : ∀ before after, SameRows before after →
      Holds before → Holds after)
    (hBatch : ∀ tables after now additions removals receipt,
      tables.Sound → tables.Timely →
        Batch (following tables.last) now additions removals
            tables.next receipt after →
          Holds tables → Holds after) :
    Holds store.tables := by
  induction hReachable with
  | blank hStart => exact hBlank _ hStart
  | @event before event hBefore hHolds =>
      have hSteady := hBefore.steady
      rcases perform_cases event hSteady.idle with
        ⟨now, writes, deletes, receipt, _, hRun⟩ | ⟨_, hRows⟩
      · rcases batch_of_write hSteady.idle hSteady.sound hRun with
          ⟨additions, removals, _, _, hWritten⟩
        exact hBatch _ _ now additions removals receipt
          hSteady.sound hSteady.timely hWritten hHolds
      · exact hSame _ _ hRows hHolds

end Store

------------------------------------------------------------
-- An Example
------------------------------------------------------------

/- A document that a user and a team become editors of. -/
namespace Sharing

def store : Store :=
  { database := { tables := {} }
    ids := { words := fun drawn => (UInt64.ofNat drawn, 0) } }

def alice : TupleKey :=
  { user := utf8 "user:alice"
    relation := utf8 "editor"
    object := utf8 "doc:readme" }

def team : TupleKey :=
  { user := utf8 "team:dev#member"
    relation := utf8 "editor"
    object := utf8 "doc:readme" }

/- The user is given twice. -/
def shared : Store :=
  store.run [.write 1000 [alice, alice] []]

theorem store_blank : store.Blank :=
  ⟨rfl, rfl, rfl, rfl, rfl⟩

theorem shared_reachable : shared.Reachable :=
  (Store.Reachable.blank store_blank).run _

end Sharing

end Rebac
