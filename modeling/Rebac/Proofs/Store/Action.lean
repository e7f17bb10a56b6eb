import Rebac.Store.Database

/-
  This file proves how actions on a store are put together:
  what a sequence of actions does, which properties it leaves
  true, and that a transaction takes effect as a whole or not
  at all.

  Key definitions include:
    * `Store.Action.Preserves`
    * `Store.Within`
    * `Store.begun`

  Key theorems include:
    * `Store.Action.run_bind`
    * `Store.Action.exists_of_run_bind`
    * `Store.Action.Preserves.bind`
    * `Store.run_transaction`
    * `Store.transaction_cases`
    * `Store.transaction_preserves`
-/

namespace Rebac

namespace Store

variable {First Second : Type}
variable {first : Action First}
variable {next : First → Action Second}
variable {Holds : Store → Prop}

------------------------------------------------------------
-- Sequences
------------------------------------------------------------

namespace Action

/- The second action goes on where the first one succeeded. -/
theorem run_bind
    (first : Action First)
    (next : First → Action Second)
    (store : Store) :
    (first >>= next).run store =
      match first.run store with
      | (.error error, middle) => (.error error, middle)
      | (.ok result, middle) => (next result).run middle := by
  have hBind :
      (first >>= next).run store =
        (ExceptT.bindCont next (first.run store).1)
          (first.run store).2 := rfl
  rw [hBind]
  rcases first.run store with ⟨_ | _, _⟩ <;> rfl

/- What succeeds as a whole succeeds in its parts. -/
theorem exists_of_run_bind
    {store after : Store}
    {result : Second}
    (hRun : (first >>= next).run store = (.ok result, after)) :
    ∃ found middle,
      first.run store = (.ok found, middle) ∧
        (next found).run middle = (.ok result, after) := by
  rw [run_bind] at hRun
  split at hRun
  · cases hRun
  · next found middle hFirst => exact ⟨found, middle, hFirst, hRun⟩

/- A query that succeeds has looked, and changed nothing. -/
theorem eq_of_run_query
    {look : Tables → Except StoreError First}
    {store after : Store}
    {result : First}
    (hRun : (query look).run store = (.ok result, after)) :
    look store.tables = .ok result ∧ after = store := by
  rcases Prod.mk.inj hRun with ⟨hLook, hStore⟩
  exact ⟨hLook, hStore.symm⟩

------------------------------------------------------------
-- Invariants
------------------------------------------------------------

/- What an action leaves true, be it that it fails. -/
def Preserves
    (action : Action First)
    (Holds : Store → Prop) : Prop :=
  ∀ store, Holds store → Holds (action.run store).2

theorem Preserves.of_run
    {store after : Store}
    {result : Except StoreError First}
    (hPreserves : Preserves first Holds)
    (hRun : first.run store = (result, after))
    (hHolds : Holds store) :
    Holds after := by
  have hAfter := hPreserves store hHolds
  rw [hRun] at hAfter
  exact hAfter

theorem Preserves.pure (result : First) :
    Preserves (pure result : Action First) Holds :=
  fun _ hHolds => hHolds

theorem Preserves.query
    (look : Tables → Except StoreError First) :
    Preserves (query look) Holds :=
  fun _ hHolds => hHolds

theorem Preserves.bind
    (hFirst : Preserves first Holds)
    (hNext : ∀ result, Preserves (next result) Holds) :
    Preserves (first >>= next) Holds := by
  intro store hHolds
  have hMiddle := hFirst store hHolds
  rw [run_bind]
  split
  · next hRun =>
      rw [hRun] at hMiddle
      exact hMiddle
  · next result middle hRun =>
      rw [hRun] at hMiddle
      exact hNext result middle hMiddle

theorem Preserves.change
    {update : Tables → Tables}
    (hUpdate : ∀ store, Holds store →
      Holds
        { store with database := store.database.change update }) :
    Preserves (change update) Holds :=
  hUpdate

theorem Preserves.drawId
    {now : Int}
    (hDraw : ∀ store ids, Holds store →
      Holds { store with ids := ids }) :
    Preserves (drawId now) Holds :=
  fun store hHolds => hDraw store _ hHolds

theorem Preserves.forM
    {Element : Type}
    {action : Element → Action PUnit}
    (hAction : ∀ element, Preserves (action element) Holds)
    (elements : List Element) :
    Preserves (elements.forM action) Holds := by
  induction elements with
  | nil => exact Preserves.pure _
  | cons element others hOthers =>
      exact (hAction element).bind fun _ => hOthers

end Action

------------------------------------------------------------
-- Transactions
------------------------------------------------------------

/- The store in a transaction that was just opened. -/
def begun (store : Store) : Store :=
  { store with
    database :=
      { store.database with saved := some store.tables } }

/-
  A transaction is committed when its body succeeds, and
  rolled back when it fails.
-/
theorem run_transaction
    {body : Action First}
    {store : Store}
    {tables : Tables}
    {ids : IdSource}
    {result : Except StoreError First}
    (hIdle : store.database.saved = none)
    (hRun :
      body.run store.begun =
        (result, ⟨⟨tables, some store.tables⟩, ids⟩)) :
    (transaction body).run store =
      (result,
        { database :=
            if result.isOk then { tables := tables }
            else store.database
          ids := ids }) := by
  rcases store with ⟨⟨before, saved⟩, source⟩
  cases hIdle
  simp only [transaction, manage, Database.begin, ExceptT.run,
    begun, Store.tables] at hRun ⊢
  rw [hRun]
  cases result <;> rfl

/-
  A transaction fails and leaves the database as it was, or
  succeeds with all that its body did. The body must not end
  the transaction itself.
-/
theorem transaction_cases
    {body : Action First}
    {store : Store}
    (hIdle : store.database.saved = none)
    (hSaved :
      (body.run store.begun).2.database.saved =
        some store.tables) :
    (∃ error after,
      (transaction body).run store = (.error error, after) ∧
        after.database = store.database) ∨
      ∃ result inner,
        body.run store.begun = (.ok result, inner) ∧
          (transaction body).run store =
            (.ok result,
              { inner with
                database :=
                  { inner.database with saved := none } }) := by
  rcases hRun : body.run store.begun with
    ⟨error | result, ⟨⟨tables, saved⟩, ids⟩⟩
  · rw [hRun] at hSaved
    cases hSaved
    exact .inl ⟨error, _, run_transaction hIdle hRun, rfl⟩
  · rw [hRun] at hSaved
    cases hSaved
    exact .inr ⟨result, _, rfl, run_transaction hIdle hRun⟩

/-
  A store whose tables have a property, in the transaction
  that started from the given tables or in none.
-/
def Within
    (saved : Option Tables)
    (Keeps : Tables → Prop)
    (store : Store) : Prop :=
  store.database.saved = saved ∧ Keeps store.tables

/- A transaction keeps what its body keeps. -/
theorem transaction_preserves
    {body : Action First}
    {Keeps : Tables → Prop}
    (hBody : ∀ saved, body.Preserves (Within saved Keeps)) :
    (transaction body).Preserves (Within none Keeps) := by
  rintro store ⟨hIdle, hKeeps⟩
  have hInner :=
    hBody (some store.tables) store.begun ⟨rfl, hKeeps⟩
  rcases transaction_cases hIdle hInner.1 with
    ⟨error, after, hFailed, hSame⟩ |
      ⟨result, inner, hRun, hDone⟩
  · rw [hFailed]
    exact ⟨hSame ▸ hIdle, by rw [tables, hSame]; exact hKeeps⟩
  · rw [hRun] at hInner
    rw [hDone]
    exact ⟨rfl, hInner.2⟩

end Store

end Rebac
