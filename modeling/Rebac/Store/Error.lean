import Rebac.Tuple.Key

/-
  This file defines why a request to the store or to the
  service fails.

  Key definitions include:
    * `TableName`
    * `TableName.text`
    * `Statement`
    * `Database.Fault`
    * `Database.Fault.message`
    * `StoreError`
    * `StoreError.Kind`
    * `StoreError.kind`
    * `StoreError.message`
-/

namespace Rebac

------------------------------------------------------------
-- Tables
------------------------------------------------------------

/- The tables of a database. -/
inductive TableName where
  | tuples
  | changes
  | sequence
  | models
  deriving DecidableEq, Repr

namespace TableName

/- The name of a table. -/
def text : TableName → Bytes
  | .tuples => utf8 "relation_tuples"
  | .changes => utf8 "tuple_changelog"
  | .sequence => utf8 "txid_sequence"
  | .models => utf8 "authorization_models"

/- All tables. -/
def all : List TableName :=
  [.tuples, .changes, .sequence, .models]

/- The table of the given name. -/
def ofText? (name : Bytes) : Option TableName :=
  all.find? fun table => table.text = name

end TableName

/- Statements that change the rows of a table. -/
inductive Statement where
  | insert
  | update
  | delete
  deriving DecidableEq, Repr

/- Pairs of a table and a statement can be told apart. -/
instance : LawfulBEq (TableName × Statement) :=
  inferInstance

/- The word of a statement. -/
def Statement.text : Statement → Bytes
  | .insert => utf8 "INSERT"
  | .update => utf8 "UPDATE"
  | .delete => utf8 "DELETE"

------------------------------------------------------------
-- Databases
------------------------------------------------------------

/- What a database may refuse. -/
inductive Database.Fault where
  | noTable (table : Bytes)
  | noTableToDrop (table : Bytes)
  | noTableToBlock (table : Bytes)
  | blocked
  | blockedSetup
  | repeatedId (table : TableName)
  | repeatedVersion
  | stillReferred
  | nested
  | nothingToCommit
  | nothingToRollBack
  | alreadyBlocked (table : Bytes) (statement : Statement)
  | notBlocked (table : Bytes) (statement : Statement)
  | notDatabase
  deriving DecidableEq, Repr

namespace Database.Fault

/- The name of the rule that blocks a statement on a table. -/
def ruleName (table : Bytes) (statement : Statement) : Bytes :=
  utf8 "block_" ++ table ++ statement.text

/- The wording of a refusal. -/
def message : Database.Fault → Bytes
  | .noTable table =>
      utf8 "prepare failed: no such table: " ++ table
  | .noTableToDrop table =>
      utf8 "exec failed: no such table: " ++ table
  | .noTableToBlock table =>
      utf8 "exec failed: no such table: main." ++ table
  | .blocked => utf8 "step failed: blocked"
  | .blockedSetup => utf8 "exec failed: blocked"
  | .repeatedId table =>
      utf8 "step failed: UNIQUE constraint failed: " ++
        table.text ++ utf8 ".id"
  | .repeatedVersion =>
      utf8 "step failed: UNIQUE constraint failed: " ++
        TableName.models.text ++ utf8 ".version_id"
  | .stillReferred =>
      utf8 "exec failed: FOREIGN KEY constraint failed"
  | .nested =>
      utf8 "exec failed: cannot start a transaction " ++
        utf8 "within a transaction"
  | .nothingToCommit =>
      utf8 "exec failed: cannot commit - " ++
        utf8 "no transaction is active"
  | .nothingToRollBack =>
      utf8 "exec failed: cannot rollback - " ++
        utf8 "no transaction is active"
  | .alreadyBlocked table statement =>
      utf8 "exec failed: trigger " ++ ruleName table statement ++
        utf8 " already exists"
  | .notBlocked table statement =>
      utf8 "exec failed: no such trigger: " ++
        ruleName table statement
  | .notDatabase =>
      utf8 "exec failed: file is not a database"

end Database.Fault

------------------------------------------------------------
-- Requests
------------------------------------------------------------

/- Why a request fails. -/
inductive StoreError where
  | invalidKey (fault : TupleKey.Fault)
  | invalidToken (token : Bytes)
  | undefinedRelation (relation type : Bytes)
  | database (fault : Database.Fault)
  | noActiveModel
  | modelNotFound
  | unknownModel (id : Bytes)
  | unknownVersion (version : Bytes)
  | uncompilable (id : Bytes)
  /- A list without room for it; this one is thrown. -/
  | oversized
  deriving DecidableEq, Repr

namespace StoreError

/- The kinds of failures. -/
inductive Kind where
  | invalidKey
  | databaseError
  | notFound
  | compileFailed
  | lengthError
  deriving DecidableEq, Repr

/- The kind of a failure. -/
def kind : StoreError → Kind
  | .invalidKey _ => .invalidKey
  | .invalidToken _ => .invalidKey
  | .undefinedRelation _ _ => .invalidKey
  | .database _ => .databaseError
  | .noActiveModel => .notFound
  | .modelNotFound => .notFound
  | .unknownModel _ => .notFound
  | .unknownVersion _ => .notFound
  | .uncompilable _ => .compileFailed
  | .oversized => .lengthError

/- The wording of a failure. -/
def message : StoreError → Bytes
  | .invalidKey fault => fault.message
  | .invalidToken token =>
      utf8 "invalid page token '" ++ token ++ utf8 "'"
  | .undefinedRelation relation type =>
      utf8 "relation '" ++ relation ++
        utf8 "' is not defined in type '" ++ type ++ utf8 "'"
  | .database fault => fault.message
  | .noActiveModel => utf8 "no active authorization model"
  | .modelNotFound => utf8 "Model not found"
  | .unknownModel id =>
      utf8 "model '" ++ id ++ utf8 "' not found"
  | .unknownVersion version =>
      utf8 "model version '" ++ version ++ utf8 "' not found"
  | .uncompilable id =>
      utf8 "stored model '" ++ id ++ utf8 "' failed to compile"
  | .oversized =>
      utf8 "cannot create std::vector larger than max_size()"

end StoreError

end Rebac
