import Rebac.Store.Database

/-
  This file defines how tuples and changes are looked up.

  Key definitions include:
    * `Visibility`
    * `Window`
    * `Window.apply`
    * `TupleFilter`
    * `TupleFilter.Admits`
    * `Tables.find`
    * `Tables.has`
    * `Tables.tuplesOn`
    * `Tables.objectIds`
    * `Tables.changesSince`
    * `Tables.lastTxid`
-/

namespace Rebac

------------------------------------------------------------
-- Windows
------------------------------------------------------------

/-
  A part of a list: how many elements are skipped and how
  many follow. A limit of zero stands for the whole list.
  Numbers from 2^63 on count as negative: a negative limit
  is none, and a negative offset skips nothing.
-/
structure Window where
  limit : UInt64 := 0
  offset : UInt64 := 0
  deriving DecidableEq, Repr

namespace Window

/- A number as a signed one. -/
def signed (number : UInt64) : Int :=
  number.toInt64.toInt

/- Takes at most the given number of elements. -/
def limited
    {Row : Type}
    (limit : UInt64)
    (rows : List Row) : List Row :=
  if signed limit < 0 then rows else rows.take limit.toNat

/- The part of a list. -/
def apply
    {Row : Type}
    (window : Window)
    (rows : List Row) : List Row :=
  if window.limit = 0 then
    rows
  else
    limited window.limit (rows.drop (signed window.offset).toNat)

end Window

------------------------------------------------------------
-- Filters
------------------------------------------------------------

/- Which tuples are looked at: live ones, a snapshot or all. -/
inductive Visibility where
  | live
  | snapshot (txid : Int)
  | all
  deriving DecidableEq, Repr

/- Whether a tuple is looked at. -/
def Visibility.Shows
    (visibility : Visibility)
    (tuple : StoredTuple) : Prop :=
  match visibility with
  | .live => tuple.Live
  | .snapshot txid => tuple.VisibleAt txid
  | .all => True

instance (visibility : Visibility) (tuple : StoredTuple) :
    Decidable (visibility.Shows tuple) := by
  unfold Visibility.Shows
  split <;> infer_instance

/-
  What tuples have to agree with; fields that are `none` do
  not matter. A user's relation that is empty stands for
  users without one.
-/
structure TupleFilter where
  userType : Option Bytes := none
  userId : Option Bytes := none
  userRelation : Option Bytes := none
  relation : Option Bytes := none
  objectType : Option Bytes := none
  objectId : Option Bytes := none
  visibility : Visibility := .live
  window : Window := {}
  deriving DecidableEq, Repr

/- Whether a text is the expected one, if one is expected. -/
def TupleFilter.agrees
    (expected : Option Bytes)
    (text : Bytes) : Bool :=
  match expected with
  | none => true
  | some required => text == required

/- Whether a tuple passes a filter. -/
def TupleFilter.Admits
    (filter : TupleFilter)
    (tuple : StoredTuple) : Prop :=
  let parts := tuple.parts
  agrees filter.userType parts.user.object.type ∧
    agrees filter.userId parts.user.object.id ∧
    agrees filter.userRelation (parts.user.relation.getD []) ∧
    agrees filter.relation parts.relation ∧
    agrees filter.objectType parts.object.type ∧
    agrees filter.objectId parts.object.id ∧
    filter.visibility.Shows tuple

instance (filter : TupleFilter) (tuple : StoredTuple) :
    Decidable (filter.Admits tuple) := by
  unfold TupleFilter.Admits
  infer_instance

namespace Tables

------------------------------------------------------------
-- Tuples
------------------------------------------------------------

/- The tuples that pass a filter, the newest first. -/
def find
    (tables : Tables)
    (filter : TupleFilter) :
    Except StoreError (List StoredTuple) :=
  match tables.require .tuples with
  | .error error => .error error
  | .ok _ =>
      .ok (filter.window.apply
        ((tables.tuples.filter fun tuple => filter.Admits tuple).mergeSort
          StoredTuple.precedes))

/- Whether a tuple is there. -/
def has
    (tables : Tables)
    (key : TupleKey)
    (visibility : Visibility) : Except StoreError Bool :=
  match key.check with
  | .error fault => .error (.invalidKey fault)
  | .ok parts =>
      (tables.find
        { userType := some parts.user.object.type
          userId := some parts.user.object.id
          userRelation := some (parts.user.relation.getD [])
          relation := some parts.relation
          objectType := some parts.object.type
          objectId := some parts.object.id
          visibility := visibility
          window := { limit := 1 } }).map
        fun rows => !rows.isEmpty

/- The tuples with a relation on an object. -/
def tuplesOn
    (tables : Tables)
    (visibility : Visibility)
    (object : ObjectRef)
    (relation : Option Bytes) :
    Except StoreError (List StoredTuple) :=
  tables.find
    { relation := relation
      objectType := some object.type
      objectId := some object.id
      visibility := visibility }

/- The ids of the objects of a type that tuples are on. -/
def objectIds
    (tables : Tables)
    (type : Bytes)
    (visibility : Visibility) : Except StoreError (List Bytes) :=
  match tables.require .tuples with
  | .error error => .error error
  | .ok _ =>
      .ok (Bytes.sortUnique
        ((tables.tuples.filter fun tuple =>
            tuple.parts.object.type = type ∧
              visibility.Shows tuple).map
          fun tuple => tuple.parts.object.id))

------------------------------------------------------------
-- Changes
------------------------------------------------------------

/- The first changes after a transaction, the oldest first. -/
def changesSince
    (tables : Tables)
    (since : Int)
    (limit : UInt64) : Except StoreError (List Change) :=
  match tables.require .changes with
  | .error error => .error error
  | .ok _ =>
      .ok (Window.limited limit
        ((tables.changes.filter fun change =>
            since < change.txid).mergeSort Change.precedes))

/- The number of the last transaction. -/
def lastTxid (tables : Tables) : Except StoreError Int :=
  (tables.require .sequence).map fun _ => tables.last

end Tables

end Rebac
