import Rebac.Proofs.Service.Listing

/-
  This file proves that tuples and users are read page by page
  from lists of stored tuples.

  Tuples are looked up in a window with one element more than
  the page has, and users are cut out of the whole list. The
  pages are the same.

  Key definitions include:
    * `Tables.Lists`
    * `StoredTuple.Relates`

  Key theorems include:
    * `Tables.exists_lists`
    * `Tables.Lists.nodup_keys`
    * `Service.exists_tuples`
    * `Service.exists_users`
-/

namespace Rebac

------------------------------------------------------------
-- The Order of Tuples
------------------------------------------------------------

namespace StoredTuple

variable {first second third : StoredTuple}

theorem precedes_iff :
    first.precedes second = true ↔
      second.created < first.created ∨
        second.created = first.created ∧
          (second.time < first.time ∨
            second.time = first.time ∧
              second.id ≤ first.id) := by
  simp [precedes]

theorem precedes_trans
    (first second third : StoredTuple)
    (hFirst : first.precedes second = true)
    (hSecond : second.precedes third = true) :
    first.precedes third = true := by
  rw [precedes_iff] at hFirst hSecond ⊢
  rcases hFirst with hCreated | ⟨hCreated, hTime | ⟨hTime, hId⟩⟩
  · left
    omega
  · omega
  · rcases hSecond with hLess | ⟨hSame, hLess | ⟨hNext, hOther⟩⟩
    · left
      omega
    · omega
    · right
      refine ⟨hSame.trans hCreated, .inr ⟨hNext.trans hTime, ?_⟩⟩
      exact List.le_trans hOther hId

theorem precedes_total (first second : StoredTuple) :
    (first.precedes second || second.precedes first) = true := by
  rw [Bool.or_eq_true, precedes_iff, precedes_iff]
  rcases List.le_total first.id second.id with hId | hId
  · simp only [hId, and_true]
    omega
  · simp only [hId, and_true]
    omega

/-
  Whether a live tuple has a relation on an object, and a user
  of some types or of any if none is given.
-/
def Relates
    (object : ObjectRef)
    (relation : Bytes)
    (types : List Bytes)
    (tuple : StoredTuple) : Prop :=
  (tuple.Live ∧ tuple.parts.relation = relation ∧
    tuple.parts.object = object) ∧
    (types = [] ∨ tuple.parts.user.object.type ∈ types)

instance
    (object : ObjectRef)
    (relation : Bytes)
    (types : List Bytes) :
    DecidablePred (Relates object relation types) := by
  unfold Relates
  infer_instance

end StoredTuple

------------------------------------------------------------
-- Lists of Tuples
------------------------------------------------------------

namespace Tables

variable {tables : Tables}
variable {rows : List StoredTuple}
variable {Matches Others : StoredTuple → Prop}
variable [DecidablePred Matches] [DecidablePred Others]

/-
  The tuples that match: the newest first, and each as often
  as it is stored.
-/
structure Lists
    (tables : Tables)
    (Matches : StoredTuple → Prop)
    [DecidablePred Matches]
    (rows : List StoredTuple) : Prop where
  ordered : rows.Pairwise fun first second =>
    first.precedes second = true
  same : rows.Perm
    (tables.tuples.filter fun tuple => Matches tuple)

theorem Lists.mem_iff
    (hLists : tables.Lists Matches rows)
    (tuple : StoredTuple) :
    tuple ∈ rows ↔ tuple ∈ tables.tuples ∧ Matches tuple := by
  rw [hLists.same.mem_iff, List.mem_filter, decide_eq_true_iff]

theorem Lists.length_le
    (hLists : tables.Lists Matches rows) :
    rows.length ≤ tables.tuples.length := by
  rw [hLists.same.length_eq]
  exact List.length_filter_le _ _

/- Some of the tuples that match. -/
theorem Lists.filter
    (hLists : tables.Lists Matches rows)
    (test : StoredTuple → Bool)
    (hOthers : ∀ tuple,
      Others tuple ↔ Matches tuple ∧ test tuple = true) :
    tables.Lists Others (rows.filter test) where
  ordered := hLists.ordered.filter test
  same := by
    have hSame := hLists.same.filter test
    rw [List.filter_filter] at hSame
    refine hSame.trans (List.Perm.of_eq ?_)
    refine List.filter_congr fun tuple _ => ?_
    rw [Bool.eq_iff_iff, Bool.and_eq_true, decide_eq_true_iff,
      decide_eq_true_iff, hOthers tuple, and_comm]

/- Which of the stored tuples match is all that counts. -/
theorem Lists.congr
    (hLists : tables.Lists Matches rows)
    (hSame : ∀ tuple ∈ tables.tuples,
      Matches tuple ↔ Others tuple) :
    tables.Lists Others rows where
  ordered := hLists.ordered
  same := by
    refine hLists.same.trans (List.Perm.of_eq ?_)
    refine List.filter_congr fun tuple hTuple => ?_
    exact decide_eq_decide.mpr (hSame tuple hTuple)

/- No key is there twice among live tuples. -/
theorem Lists.nodup_keys
    (hLists : tables.Lists Matches rows)
    (hSound : tables.Sound)
    (hLive : ∀ tuple, Matches tuple → tuple.Live) :
    (rows.map StoredTuple.key).Nodup := by
  refine List.Nodup.map_on ?_ ?_
  · intro first hFirst second hSecond hKey
    rcases (hLists.mem_iff first).mp hFirst with
      ⟨hFirstRow, hFirstMatches⟩
    rcases (hLists.mem_iff second).mp hSecond with
      ⟨hSecondRow, hSecondMatches⟩
    exact hSound.keys first hFirstRow second hSecondRow
      (hLive first hFirstMatches) (hLive second hSecondMatches)
      hKey
  · rw [hLists.same.nodup_iff]
    exact hSound.nodup.filter _

/- A lookup shows a window of the tuples that pass its filter. -/
theorem exists_lists
    (hMissing : tables.missing = [])
    (filter : TupleFilter) :
    ∃ rows, tables.Lists filter.Admits rows ∧
      ∀ window,
        tables.find { filter with window := window } =
          .ok (window.apply rows) := by
  refine ⟨(tables.tuples.filter fun tuple =>
      filter.Admits tuple).mergeSort StoredTuple.precedes,
    ⟨?_, List.mergeSort_perm _ _⟩, ?_⟩
  · exact List.pairwise_mergeSort StoredTuple.precedes_trans
      StoredTuple.precedes_total _
  · intro window
    rw [find, require_eq hMissing]
    rfl

end Tables

namespace Service

variable {Shared : Type}
variable {service : Service Shared}

------------------------------------------------------------
-- Tuples
------------------------------------------------------------

theorem exists_tuples
    {request : ReadRequest}
    {user : Option UserRef}
    {object : Option ObjectRef}
    (hMissing : service.tables.missing = [])
    (hRows :
      service.tables.tuples.length ≤ Numeral.largestInt64)
    (hUser : readUser request.user = .ok user)
    (hObject : readObject request.object = .ok object)
    (size : UInt64) :
    ∃ rows,
      service.tables.Lists
          (readFilter request user object {}).Admits rows ∧
        Page.Delivers
          (fun token =>
            service.read
              { request with size := size, token := token })
          size (rows.map StoredTuple.key) := by
  rcases Tables.exists_lists hMissing
      (readFilter request user object {}) with
    ⟨rows, hLists, hFind⟩
  have hShort :
      (rows.map StoredTuple.key).length ≤
        Numeral.largestInt64 := by
    rw [List.length_map]
    exact (Int.ofNat_le.mpr hLists.length_le).trans hRows
  refine ⟨rows, hLists,
    Page.delivers_of_part hShort fun token offset hToken hBegins =>
      ?_⟩
  rw [← Page.ofLookup_eq_part hShort (hBegins.bounds hShort),
    ← Window.map_apply, read]
  dsimp only
  rw [hToken, hUser, hObject]
  exact congrArg
    (fun found => found.bind fun rows =>
      Except.ok (Page.ofLookup (rows.map StoredTuple.key) offset
        (Page.effectiveSize size)))
    (hFind (Page.window offset (Page.effectiveSize size)))

------------------------------------------------------------
-- Users
------------------------------------------------------------

theorem exists_users
    {object : Bytes}
    {reference : ObjectRef}
    (hMissing : service.tables.missing = [])
    (hRows :
      service.tables.tuples.length ≤ Numeral.largestInt64)
    (hObject : ObjectRef.parse? object = some reference)
    (relation : Bytes)
    (types : List Bytes)
    (size : UInt64) :
    ∃ rows,
      service.tables.Lists
          (StoredTuple.Relates reference relation types) rows ∧
        Page.Delivers
          (fun token =>
            service.listUsers object relation types size token)
          size (rows.map fun tuple => tuple.parts.user.text) := by
  rcases Tables.exists_lists hMissing
      { relation := some relation
        objectType := some reference.type
        objectId := some reference.id } with
    ⟨found, hFound, hFind⟩
  have hTuples :
      service.tables.tuplesOn .live reference (some relation) =
        .ok found :=
    hFind {}
  have hLists :
      service.tables.Lists
        (StoredTuple.Relates reference relation types)
        (found.filter fun tuple => types.isEmpty ||
          types.contains tuple.parts.user.object.type) := by
    refine hFound.filter _ fun tuple => ?_
    rw [Tables.admits_on_iff, Bool.or_eq_true,
      List.isEmpty_iff, List.contains_iff_mem]
    rfl
  refine ⟨_, hLists, ?_⟩
  have hShort :
      ((found.filter fun tuple => types.isEmpty ||
        types.contains tuple.parts.user.object.type).map
          fun tuple => tuple.parts.user.text).length ≤
            Numeral.largestInt64 := by
    rw [List.length_map]
    exact (Int.ofNat_le.mpr hLists.length_le).trans hRows
  refine Page.delivers_of_cut hShort fun token offset hToken => ?_
  rw [listUsers, hToken, hObject]
  simp only [Except.bind, bind, hTuples, List.filter_map,
    List.map_map]
  rfl

end Service

end Rebac
