import Rebac.Resp.Parse
import Rebac.Store.Tables

/-
  This file defines how the tables of a database are kept in
  a file.

  A file is a sequence of rows, each written as a command: a
  word for the kind of the row and its fields. An empty file
  is a database without tables.

  Key definitions include:
    * `Row`
    * `Row.fields`
    * `Row.ofFields?`
    * `Tables.rows`
    * `Tables.ofRows`
    * `Tables.toFile`
    * `Tables.ofFile?`
-/

namespace Rebac

------------------------------------------------------------
-- Rows
------------------------------------------------------------

/- What a file holds besides its order. -/
inductive Row where
  | tuple (stored : StoredTuple)
  | change (entry : Change)
  | last (txid : Int)
  | model (stored : StoredModel)
  | missing (table : TableName)
  | blocked (table : TableName) (statement : Statement)
  deriving DecidableEq, Repr

namespace Row

/- The word of a yes or no. -/
def flag (value : Bool) : Bytes :=
  utf8 (if value then "1" else "0")

/- A number that may be missing. -/
def optional : Option Int → Bytes
  | none => []
  | some number => Numeral.ofInt number

/- The fields of a row, the first for its kind. -/
def fields : Row → List Bytes
  | .tuple stored =>
      [utf8 "tuple", stored.id, stored.key.user,
        stored.key.relation, stored.key.object,
        Numeral.ofInt stored.created, optional stored.deleted,
        Numeral.ofInt stored.time]
  | .change entry =>
      [utf8 "change", entry.id, entry.operation.text,
        entry.tuple, Numeral.ofInt entry.txid,
        Numeral.ofInt entry.time]
  | .last txid => [utf8 "last", Numeral.ofInt txid]
  | .model stored =>
      [utf8 "model", stored.id, stored.version,
        stored.schemaVersion, stored.source,
        flag stored.active, Numeral.ofInt stored.created]
  | .missing table => [utf8 "missing", table.text]
  | .blocked table statement =>
      [utf8 "blocked", table.text, statement.text]

------------------------------------------------------------
-- Reading
------------------------------------------------------------

/- Reads a yes or no. -/
def readFlag? (text : Bytes) : Option Bool :=
  [true, false].find? fun value => flag value = text

/- Reads a number that may be missing. -/
def readOptional? (text : Bytes) : Option (Option Int) :=
  if text = [] then
    some none
  else
    (Numeral.readInt? text).map some

/- Reads the word of an operation. -/
def readOperation? (text : Bytes) : Option Operation :=
  [Operation.write, .delete].find? fun operation =>
    operation.text = text

/- Reads the word of a statement. -/
def readStatement? (text : Bytes) : Option Statement :=
  [Statement.insert, .update, .delete].find? fun statement =>
    statement.text = text

/- Reads the fields of a tuple. -/
def readTuple? : List Bytes → Option StoredTuple
  | [id, user, relation, object, created, deleted, time] => do
      let key : TupleKey := ⟨user, relation, object⟩
      return {
        id := id
        parts := ← key.check.toOption
        created := ← Numeral.readInt? created
        deleted := ← readOptional? deleted
        time := ← Numeral.readInt? time }
  | _ => none

/- Reads the fields of a change. -/
def readChange? : List Bytes → Option Change
  | [id, operation, changed, txid, time] => do
      return {
        id := id
        operation := ← readOperation? operation
        tuple := changed
        txid := ← Numeral.readInt? txid
        time := ← Numeral.readInt? time }
  | _ => none

/- Reads the fields of a model. -/
def readModel? : List Bytes → Option StoredModel
  | [id, version, schemaVersion, source, active, created] => do
      return {
        id := id
        version := version
        schemaVersion := schemaVersion
        source := source
        active := ← readFlag? active
        created := ← Numeral.readInt? created }
  | _ => none

/- Reads the number of the last transaction. -/
def readLast? : List Bytes → Option Int
  | [txid] => Numeral.readInt? txid
  | _ => none

/- Reads the name of a table. -/
def readTable? : List Bytes → Option TableName
  | [table] => TableName.ofText? table
  | _ => none

/- Reads a table and a statement that is blocked on it. -/
def readBlocked? : List Bytes → Option Row
  | [table, statement] => do
      return .blocked (← TableName.ofText? table)
        (← readStatement? statement)
  | _ => none

/- Reads a row. -/
def ofFields? : List Bytes → Option Row
  | [] => none
  | kind :: rest =>
      if kind = utf8 "tuple" then
        (readTuple? rest).map .tuple
      else if kind = utf8 "change" then
        (readChange? rest).map .change
      else if kind = utf8 "last" then
        (readLast? rest).map .last
      else if kind = utf8 "model" then
        (readModel? rest).map .model
      else if kind = utf8 "missing" then
        (readTable? rest).map .missing
      else if kind = utf8 "blocked" then
        readBlocked? rest
      else
        none

end Row

------------------------------------------------------------
-- Files
------------------------------------------------------------

namespace Tables

/- The rows of all tables. -/
def rows (tables : Tables) : List Row :=
  .last tables.last ::
    tables.missing.map .missing ++
    tables.blocked.map (fun rule => .blocked rule.1 rule.2) ++
    tables.models.map .model ++
    tables.tuples.map .tuple ++
    tables.changes.map .change

/- The tables that some rows belong to. -/
def ofRows (rows : List Row) : Tables :=
  { tuples := rows.filterMap fun
      | .tuple stored => some stored
      | _ => none
    changes := rows.filterMap fun
      | .change entry => some entry
      | _ => none
    last := (rows.findSome? fun
      | .last txid => some txid
      | _ => none).getD 0
    models := rows.filterMap fun
      | .model stored => some stored
      | _ => none
    missing := rows.filterMap fun
      | .missing table => some table
      | _ => none
    blocked := rows.filterMap fun
      | .blocked table statement => some (table, statement)
      | _ => none }

/- The file of a database. -/
def toFile (tables : Tables) : Bytes :=
  tables.rows.flatMap fun row => Resp.command row.fields

/- Reads a value that is a list of texts. -/
def readTexts? : Resp.Value → Option (List Bytes)
  | .array values =>
      values.mapM fun
        | .bulk text => some text
        | _ => none
  | _ => none

/- Reads the file of a database. -/
def ofFile? (file : Bytes) : Option Tables :=
  if file = [] then
    some empty
  else
    match Resp.parseAll file with
    | (_, some _) => none
    | (values, none) =>
        (values.mapM fun found =>
          (readTexts? found.1).bind Row.ofFields?).map ofRows

end Tables

end Rebac
