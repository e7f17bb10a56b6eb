import Rebac.Numeral
import Rebac.Proofs.Bytes
import Rebac.Store.Query

/-
  This file proves what the lookups of tuples find.

  Key theorems include:
    * `Window.signed_eq`
    * `Tables.require_eq`
    * `Tables.mem_find_iff`
    * `Tables.admits_on_iff`
    * `Tables.mem_tuplesOn_iff`
    * `Tables.mem_objectIds_iff`
-/

namespace Rebac

@[simp] theorem TupleFilter.agrees_some_iff
    {required text : Bytes} :
    TupleFilter.agrees (some required) text = true ↔
      text = required := by
  simp [TupleFilter.agrees]

@[simp] theorem TupleFilter.agrees_none
    {text : Bytes} :
    TupleFilter.agrees none text = true := rfl

/- A number of 63 bits is not negative as a signed one. -/
theorem Window.signed_eq
    {number : UInt64}
    (hNumber : number.toNat ≤ Numeral.largestInt64) :
    Window.signed number = number.toNat := by
  have hSmall : 2 * number.toNat < 2 ^ 64 := by
    rw [Numeral.largestInt64] at hNumber
    omega
  exact BitVec.toInt_eq_toNat_of_lt hSmall

/- A number of 64 bits is. -/
theorem Window.signed_neg
    {number : UInt64}
    (hNumber : Numeral.largestInt64 < number.toNat) :
    Window.signed number < 0 := by
  have hLarge : 2 ^ 64 ≤ 2 * number.toNat := by
    rw [Numeral.largestInt64] at hNumber
    omega
  exact BitVec.toInt_neg_iff.mpr hLarge

namespace Tables

------------------------------------------------------------
-- Present Tables
------------------------------------------------------------

section

variable {tables : Tables}
variable (hMissing : tables.missing = [])

include hMissing

/- No table is refused if none is missing. -/
theorem require_eq
    (table : TableName) :
    tables.require table = .ok () := by
  rw [require, hMissing, if_neg List.not_mem_nil]

theorem lastTxid_eq : tables.lastTxid = .ok tables.last := by
  rw [lastTxid, require_eq hMissing]
  rfl

/- Lookups only fail if the tuples are missing. -/
theorem exists_find
    (filter : TupleFilter) :
    ∃ rows, tables.find filter = .ok rows := by
  rw [find, require_eq hMissing]
  exact ⟨_, rfl⟩

theorem exists_objectIds
    (type : Bytes)
    (visibility : Visibility) :
    ∃ ids, tables.objectIds type visibility = .ok ids := by
  rw [objectIds, require_eq hMissing]
  exact ⟨_, rfl⟩

end

------------------------------------------------------------
-- Results
------------------------------------------------------------

/- Without a limit, a lookup finds what the filter admits. -/
theorem mem_find_iff
    {tables : Tables}
    {filter : TupleFilter}
    {rows : List StoredTuple}
    (hFind : tables.find filter = .ok rows)
    (hLimit : filter.window.limit = 0)
    (tuple : StoredTuple) :
    tuple ∈ rows ↔
      tuple ∈ tables.tuples ∧ filter.Admits tuple := by
  rw [find] at hFind
  split at hFind
  · cases hFind
  · cases hFind
    rw [Window.apply, if_pos hLimit, List.mem_mergeSort,
      List.mem_filter, decide_eq_true_iff]

/- What is looked up on an object is a relation on it. -/
theorem admits_on_iff
    (visibility : Visibility)
    (object : ObjectRef)
    (relation : Bytes)
    (tuple : StoredTuple) :
    TupleFilter.Admits
        { relation := some relation
          objectType := some object.type
          objectId := some object.id
          visibility := visibility }
        tuple ↔
      visibility.Shows tuple ∧
        tuple.parts.relation = relation ∧
        tuple.parts.object = object := by
  have hObject :
      tuple.parts.object = object ↔
        tuple.parts.object.type = object.type ∧
          tuple.parts.object.id = object.id := by
    cases tuple.parts.object
    cases object
    exact ObjectRef.mk.injEq .. |>.to_iff
  simp only [TupleFilter.Admits, TupleFilter.agrees_some_iff,
    TupleFilter.agrees_none, true_and, hObject]
  constructor
  · rintro ⟨hRelation, hType, hId, hShows⟩
    exact ⟨hShows, hRelation, hType, hId⟩
  · rintro ⟨hShows, hRelation, hType, hId⟩
    exact ⟨hRelation, hType, hId, hShows⟩

/- The visible tuples with a relation on an object. -/
theorem mem_tuplesOn_iff
    {tables : Tables}
    {visibility : Visibility}
    {object : ObjectRef}
    {relation : Bytes}
    {rows : List StoredTuple}
    (hRows :
      tables.tuplesOn visibility object (some relation) =
        .ok rows)
    (tuple : StoredTuple) :
    tuple ∈ rows ↔
      tuple ∈ tables.tuples ∧ visibility.Shows tuple ∧
        tuple.parts.relation = relation ∧
        tuple.parts.object = object := by
  rw [mem_find_iff hRows rfl, admits_on_iff]

section

variable {tables : Tables}
variable {type : Bytes}
variable {visibility : Visibility}
variable {ids : List Bytes}
variable (hIds : tables.objectIds type visibility = .ok ids)

include hIds

theorem objectIds_eq :
    ids =
      Bytes.sortUnique
        ((tables.tuples.filter fun tuple =>
            tuple.parts.object.type = type ∧
              visibility.Shows tuple).map
          fun tuple => tuple.parts.object.id) := by
  rw [objectIds] at hIds
  split at hIds
  · cases hIds
  · exact (Except.ok.inj hIds).symm

/- The ids of the objects of a type that have a tuple. -/
theorem mem_objectIds_iff
    (id : Bytes) :
    id ∈ ids ↔
      ∃ tuple ∈ tables.tuples,
        visibility.Shows tuple ∧
          tuple.parts.object = ⟨type, id⟩ := by
  rw [objectIds_eq hIds, Bytes.mem_sortUnique_iff, List.mem_map]
  refine exists_congr fun tuple => ?_
  rw [List.mem_filter, decide_eq_true_iff]
  constructor
  · rintro ⟨⟨hRow, rfl, hShows⟩, rfl⟩
    exact ⟨hRow, hShows, rfl⟩
  · rintro ⟨hRow, hShows, hObject⟩
    rw [hObject]
    exact ⟨⟨hRow, rfl, hShows⟩, rfl⟩

/- They are in bytewise order, and each is there once. -/
theorem pairwise_objectIds : ids.Pairwise (· < ·) := by
  rw [objectIds_eq hIds]
  exact Bytes.pairwise_sortUnique _

theorem length_objectIds_le :
    ids.length ≤ tables.tuples.length := by
  rw [objectIds_eq hIds]
  refine Nat.le_trans (Bytes.length_sortUnique_le _) ?_
  rw [List.length_map]
  exact List.length_filter_le _ _

end

end Tables

end Rebac
