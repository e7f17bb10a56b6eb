import Rebac.Store.Error

/-
  This file defines the rows that a database holds.

  A tuple is never removed. A deleted one keeps its row and
  names the transaction that deleted it, so that every past
  state can be read: a snapshot at a transaction holds the
  tuples that were created up to it and not deleted up to
  it.

  Key definitions include:
    * `StoredTuple`
    * `StoredTuple.Live`
    * `StoredTuple.VisibleAt`
    * `Change`
    * `StoredModel`
    * `Tables`
    * `Tables.empty`
-/

namespace Rebac

------------------------------------------------------------
-- Tuples
------------------------------------------------------------

/-
  A tuple with the transactions that created and deleted it,
  and the time of its creation in milliseconds.
-/
structure StoredTuple where
  id : Bytes
  parts : TupleKey.Parts
  created : Int
  deleted : Option Int
  time : Int
  deriving DecidableEq, Repr

namespace StoredTuple

/- The key of a tuple. -/
def key (tuple : StoredTuple) : TupleKey :=
  tuple.parts.key

/- A tuple that was not deleted. -/
def Live (tuple : StoredTuple) : Prop :=
  tuple.deleted = none

instance (tuple : StoredTuple) : Decidable tuple.Live := by
  unfold Live
  infer_instance

/- A tuple that belongs to the snapshot at a transaction. -/
def VisibleAt (tuple : StoredTuple) (txid : Int) : Prop :=
  tuple.created ≤ txid ∧ ∀ deleted ∈ tuple.deleted, txid < deleted

instance (tuple : StoredTuple) (txid : Int) :
    Decidable (tuple.VisibleAt txid) := by
  unfold VisibleAt
  infer_instance

/-
  Whether a tuple is listed before another one: later
  transactions first, then later times, then greater ids.
-/
def precedes (first second : StoredTuple) : Bool :=
  second.created < first.created ||
    (second.created == first.created &&
      (second.time < first.time ||
        (second.time == first.time && second.id ≤ first.id)))

end StoredTuple

------------------------------------------------------------
-- Changes and Models
------------------------------------------------------------

/- What happened to a tuple. -/
inductive Operation where
  | write
  | delete
  deriving DecidableEq, Repr

/- The word of an operation. -/
def Operation.text : Operation → Bytes
  | .write => utf8 "WRITE"
  | .delete => utf8 "DELETE"

/- An entry of the log of changes. -/
structure Change where
  id : Bytes
  operation : Operation
  tuple : Bytes
  txid : Int
  time : Int
  deriving DecidableEq, Repr

/- Whether an entry is listed before another one. -/
def Change.precedes (first second : Change) : Bool :=
  first.txid < second.txid ||
    (first.txid == second.txid && first.id ≤ second.id)

/- A model as it is stored; only its source is kept. -/
structure StoredModel where
  id : Bytes
  version : Bytes
  schemaVersion : Bytes
  source : Bytes
  active : Bool
  created : Int
  deriving DecidableEq, Repr

/- Whether a model is listed before another one. -/
def StoredModel.precedes (first second : StoredModel) : Bool :=
  second.created < first.created ||
    (second.created == first.created && second.id ≤ first.id)

------------------------------------------------------------
-- Tables
------------------------------------------------------------

/-
  The rows of all tables, the oldest first, and the last
  transaction. Tables may be missing, and statements on a
  table may be blocked.
-/
structure Tables where
  tuples : List StoredTuple := []
  changes : List Change := []
  last : Int := 0
  models : List StoredModel := []
  missing : List TableName := []
  blocked : List (TableName × Statement) := []
  deriving Repr

namespace Tables

/- The tables of a database that was just created. -/
def empty : Tables :=
  { missing := TableName.all }

/- Refuses to use a table that is missing. -/
def require
    (tables : Tables)
    (table : TableName) : Except StoreError Unit :=
  if table ∈ tables.missing then
    .error (.database (.noTable table.text))
  else
    .ok ()

/- Refuses a statement that is blocked. -/
def permit
    (tables : Tables)
    (table : TableName)
    (statement : Statement) : Except StoreError Unit :=
  if (table, statement) ∈ tables.blocked then
    .error (.database .blocked)
  else
    .ok ()

end Tables

end Rebac
