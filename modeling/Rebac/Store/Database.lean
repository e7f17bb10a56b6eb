import Rebac.Store.Tables
import Rebac.Ulid

/-
  This file defines databases and the actions on them.

  A transaction remembers the tables that it started from.
  Rolling it back restores them, and committing it forgets
  them.

  Key definitions include:
    * `Database`
    * `Database.begin`
    * `Database.commit`
    * `Database.rollBack`
    * `Database.drop`
    * `Database.block`
    * `Database.unblock`
    * `Store`
    * `Store.Action`
    * `Store.transaction`
    * `Store.prepare`
-/

namespace Rebac

/-
  The tables of a database, and those that the transaction
  started from, if one is open.
-/
structure Database where
  tables : Tables := Tables.empty
  saved : Option Tables := none
  deriving Repr

namespace Database

------------------------------------------------------------
-- Transactions
------------------------------------------------------------

/- Opens a transaction; there is at most one. -/
def begin (database : Database) : Except Fault Database :=
  match database.saved with
  | none => .ok { database with saved := some database.tables }
  | some _ => .error .nested

/- Keeps what was changed in the transaction. -/
def commit (database : Database) : Except Fault Database :=
  match database.saved with
  | none => .error .nothingToCommit
  | some _ => .ok { database with saved := none }

/- Takes back what was changed in the transaction. -/
def rollBack (database : Database) : Except Fault Database :=
  match database.saved with
  | none => .error .nothingToRollBack
  | some tables => .ok { tables := tables, saved := none }

------------------------------------------------------------
-- Tables
------------------------------------------------------------

/- Changes the tables. -/
def change
    (database : Database)
    (update : Tables → Tables) : Database :=
  { database with tables := update database.tables }

/- The rows of all tables but one. -/
def withoutRows (tables : Tables) : TableName → Tables
  | .tuples => { tables with tuples := [] }
  | .changes => { tables with changes := [] }
  | .sequence => { tables with last := 0 }
  | .models => { tables with models := [] }

/- The table of a name, if it is there. -/
def present?
    (database : Database)
    (name : Bytes) : Option TableName :=
  (TableName.ofText? name).filter fun table =>
    table ∉ database.tables.missing

/-
  Removes a table with its rows and its rules. Tuples that
  the log of changes refers to cannot be removed.
-/
def drop
    (database : Database)
    (name : Bytes) : Except Fault Database :=
  match database.present? name with
  | none => .error (.noTableToDrop name)
  | some table =>
      if table = .tuples ∧ database.tables.changes ≠ [] then
        .error .stillReferred
      else
        .ok (database.change fun tables =>
          { withoutRows tables table with
            missing := table :: tables.missing
            blocked := tables.blocked.filter fun rule =>
              rule.1 ≠ table })

/- Makes a statement on a table fail from now on. -/
def block
    (database : Database)
    (name : Bytes)
    (statement : Statement) : Except Fault Database :=
  match database.present? name with
  | none => .error (.noTableToBlock name)
  | some table =>
      if (table, statement) ∈ database.tables.blocked then
        .error (.alreadyBlocked name statement)
      else
        .ok (database.change fun tables =>
          { tables with
            blocked := (table, statement) :: tables.blocked })

/- Lets a blocked statement succeed again. -/
def unblock
    (database : Database)
    (name : Bytes)
    (statement : Statement) : Except Fault Database :=
  let rules :=
    match database.present? name with
    | none => []
    | some table => [(table, statement)]
  if rules.any fun rule => database.tables.blocked.contains rule then
    .ok (database.change fun tables =>
      { tables with
        blocked := tables.blocked.filter fun rule =>
          !rules.contains rule })
  else
    .error (.notBlocked name statement)

end Database

------------------------------------------------------------
-- Stores
------------------------------------------------------------

/- A database and a supply of identifiers for its rows. -/
structure Store where
  database : Database := {}
  ids : IdSource

namespace Store

/-
  An action on a store has a result or fails. What it did
  before it failed is not taken back by itself.
-/
abbrev Action (Result : Type) :=
  ExceptT StoreError (StateM Store) Result

/- The tables of a store. -/
def tables (store : Store) : Tables :=
  store.database.tables

/- Looks something up in the tables. -/
def query
    {Result : Type}
    (look : Tables → Except StoreError Result) :
    Action Result :=
  fun store => (look store.tables, store)

/- Changes the tables. -/
def change (update : Tables → Tables) : Action Unit :=
  fun store =>
    (.ok (),
      { store with database := store.database.change update })

/- Changes the database, unless it refuses. -/
def manage
    (step : Database → Except Database.Fault Database) :
    Action Unit :=
  fun store =>
    match step store.database with
    | .error fault => (.error (.database fault), store)
    | .ok database => (.ok (), { store with database := database })

/- Draws an identifier. -/
def drawId (now : Int) : Action Bytes :=
  fun store =>
    let (id, ids) := store.ids.draw now
    (.ok id, { store with ids := ids })

/- Draws the identity of a model. -/
def drawWith
    {Result : Type}
    (draw : IdSource → Result × IdSource) : Action Result :=
  fun store =>
    let (result, ids) := draw store.ids
    (.ok result, { store with ids := ids })

/- The database after a transaction failed. -/
def abandon (store : Store) : Store :=
  match store.database.rollBack with
  | .error _ => store
  | .ok database => { store with database := database }

/-
  Runs an action as a whole: if it fails, nothing that it
  did to the database remains.
-/
def transaction
    {Result : Type}
    (body : Action Result) : Action Result :=
  fun store =>
    match (manage Database.begin).run store with
    | (.error error, store) => (.error error, store)
    | (.ok _, store) =>
        match body.run store with
        | (.error error, store) => (.error error, store.abandon)
        | (.ok result, store) =>
            match (manage Database.commit).run store with
            | (.error error, store) =>
                (.error error, store.abandon)
            | (.ok _, store) => (.ok result, store)

------------------------------------------------------------
-- Preparation
------------------------------------------------------------

/- Creates a table if it is missing. -/
def create (table : TableName) : Action Unit :=
  change fun tables =>
    { tables with
      missing := tables.missing.filter fun name => name ≠ table }

/-
  Creates the tables that are missing. The first number of
  the sequence is inserted again every time, which does
  nothing when it is there.
-/
def prepare : Action Unit := do
  create .tuples
  create .changes
  create .sequence
  query fun tables =>
    if (.sequence, .insert) ∈ tables.blocked then
      .error (.database .blockedSetup)
    else
      .ok ()
  create .models

end Store

end Rebac
