import Rebac.Numeral
import Rebac.Store.Database

/-
  This file defines how batches of tuples are written.

  A batch is one transaction with a number of its own. Its
  deletions come first: a tuple that is both deleted and
  written is deleted and then created again. Deleting a
  tuple that is not there and writing one that is there do
  nothing, and leave no entry in the log of changes.

  Key definitions include:
    * `Receipt`
    * `Store.checkKeys`
    * `Store.nextTxid`
    * `Store.logChange`
    * `Store.deleteTuple`
    * `Store.writeTuple`
    * `Store.write`
-/

namespace Rebac

/- The transaction of a batch and the tuples that changed. -/
structure Receipt where
  txid : Int
  written : Nat
  deleted : Nat
  deriving DecidableEq, Repr

namespace Tables

/- The live tuples with the given parts. -/
def liveWith
    (tables : Tables)
    (parts : TupleKey.Parts) : List StoredTuple :=
  tables.tuples.filter fun tuple =>
    tuple.Live ∧ tuple.parts = parts

end Tables

namespace Store

------------------------------------------------------------
-- Statements
------------------------------------------------------------

/- Reads keys; the first fault refuses them all. -/
def checkKeys
    (keys : List TupleKey) :
    Except StoreError (List TupleKey.Parts) :=
  match keys with
  | [] => .ok []
  | key :: others =>
      match key.check, checkKeys others with
      | .error fault, _ => .error (.invalidKey fault)
      | .ok _, .error error => .error error
      | .ok parts, .ok rest => .ok (parts :: rest)

/- Numbers of transactions stay below 2^63. -/
def following (txid : Int) : Int :=
  min (txid + 1) Numeral.largestInt64

/- Takes the number of the next transaction. -/
def nextTxid : Action Int := do
  query fun tables => tables.require .sequence
  query fun tables => tables.permit .sequence .update
  change fun tables => { tables with last := following tables.last }
  query fun tables => .ok tables.last

/- Adds an entry to the log of changes. -/
def logChange
    (operation : Operation)
    (tuple : Bytes)
    (txid now : Int) : Action Unit := do
  query fun tables => tables.require .changes
  let id ← drawId now
  query fun tables => tables.permit .changes .insert
  query fun tables =>
    if tables.changes.any fun change => change.id = id then
      .error (.database (.repeatedId .changes))
    else
      .ok ()
  change fun tables =>
    { tables with
      changes := tables.changes ++
        [{ id := id
           operation := operation
           tuple := tuple
           txid := txid
           time := now }] }

/- Marks a tuple as deleted and logs it. -/
def markDeleted
    (txid now : Int)
    (id : Bytes) : Action Unit := do
  query fun tables => tables.permit .tuples .update
  change fun tables =>
    { tables with
      tuples := tables.tuples.map fun tuple =>
        if tuple.id = id then
          { tuple with deleted := some txid }
        else
          tuple }
  logChange .delete id txid now

/- Deletes the live tuple of a key and counts it. -/
def deleteTuple
    (txid now : Int)
    (parts : TupleKey.Parts) : Action Nat := do
  query fun tables => tables.require .tuples
  let live ← query fun tables => .ok (tables.liveWith parts)
  live.forM fun tuple => markDeleted txid now tuple.id
  return live.length

/- Inserts a tuple and logs it. -/
def insertTuple
    (txid now : Int)
    (parts : TupleKey.Parts) : Action Unit := do
  let id ← drawId now
  query fun tables => tables.permit .tuples .insert
  query fun tables =>
    if tables.tuples.any fun tuple => tuple.id = id then
      .error (.database (.repeatedId .tuples))
    else
      .ok ()
  change fun tables =>
    { tables with
      tuples := tables.tuples ++
        [{ id := id
           parts := parts
           created := txid
           deleted := none
           time := now }] }
  logChange .write id txid now

/- Writes a tuple unless it is there, and counts it. -/
def writeTuple
    (txid now : Int)
    (parts : TupleKey.Parts) : Action Nat := do
  query fun tables => tables.require .tuples
  let live ← query fun tables => .ok (tables.liveWith parts)
  if live.isEmpty then
    insertTuple txid now parts
    return 1
  else
    return 0

------------------------------------------------------------
-- Batches
------------------------------------------------------------

/- Runs an action for each element and adds up the results. -/
def total
    {Element : Type}
    (action : Element → Action Nat) :
    List Element → Action Nat
  | [] => return 0
  | element :: others => do
      let first ← action element
      let rest ← total action others
      return first + rest

/- Writes and deletes tuples in one transaction. -/
def write
    (now : Int)
    (writes deletes : List TupleKey) : Action Receipt := do
  let additions ← query fun _ => checkKeys writes
  let removals ← query fun _ => checkKeys deletes
  transaction do
    let txid ← nextTxid
    let deleted ← total (deleteTuple txid now) removals
    let written ← total (writeTuple txid now) additions
    return { txid := txid, written := written, deleted := deleted }

end Store

end Rebac
