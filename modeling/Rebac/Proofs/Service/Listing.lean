import Rebac.Proofs.Check.Presence
import Rebac.Proofs.Check.Snapshot
import Rebac.Proofs.Service.Alignment
import Rebac.Proofs.Service.Page

/-
  This file proves that a user's objects are listed without
  gaps.

  Only objects with tuples on them are looked at. Still the
  pages together have every object on which a check at the
  last transaction is allowed, and no other: the active model
  was compiled, and under such a model nothing is allowed on
  an object without tuples.

  Key definitions include:
    * `Service.AllowsAlong`
    * `Service.Allows`
    * `Service.allowedIds`

  Key theorems include:
    * `Service.mem_allowedIds_iff`
    * `Service.listObjectsAlong_eq`
    * `Service.delivers_listObjects`
    * `Service.ends_listObjects`
    * `Service.listObjects_complete`
-/

namespace Rebac

namespace Service

variable {Shared : Type}
variable {service : Service Shared}
variable {model : Model}
variable {user relation type : Bytes}
variable {definition : RelationDefinition}
variable {txid : Int}
variable {ids : List Bytes}
variable {course other : Clock.Course}
variable {courses : Bytes → Clock.Course}

------------------------------------------------------------
-- Checks
------------------------------------------------------------

/-
  Whether a check of the snapshot at a transaction is allowed
  while the clock goes on.
-/
def AllowsAlong
    (service : Service Shared)
    (course : Clock.Course)
    (txid : Int)
    (user relation : Bytes)
    (object : ObjectRef) : Prop :=
  (service.engine.checkAlong service.tables course
    { key := ⟨user, relation, object.text⟩
      txid := some txid }).decision = .allowed

instance
    (course : Clock.Course)
    (txid : Int)
    (user relation : Bytes)
    (object : ObjectRef) :
    Decidable
      (service.AllowsAlong course txid user relation object) :=
  inferInstanceAs (Decidable (_ = _))

/- Or while it stands still. -/
def Allows
    (service : Service Shared)
    (now txid : Int)
    (user relation : Bytes)
    (object : ObjectRef) : Prop :=
  (service.engine.check service.tables now
    { key := ⟨user, relation, object.text⟩
      txid := some txid }).decision = .allowed

instance
    (now txid : Int)
    (user relation : Bytes)
    (object : ObjectRef) :
    Decidable (service.Allows now txid user relation object) :=
  inferInstanceAs (Decidable (_ = _))

/- As long as the time suffices, it does not matter which. -/
theorem allowsAlong_iff
    {object : ObjectRef}
    (hCourse : service.engine.limits.Suffices course)
    (hOther : service.engine.limits.Suffices other) :
    service.AllowsAlong course txid user relation object ↔
      service.AllowsAlong other txid user relation object := by
  unfold AllowsAlong Engine.checkAlong
  rw [Engine.boundsAlong_eq hCourse rfl,
    Engine.boundsAlong_eq hOther rfl]

/- A check is only allowed on objects that are looked at. -/
theorem mem_of_allowsAlong
    {id : Bytes}
    (hModel : service.engine.model = some model)
    (hWellFormed : model.schema.WellFormed)
    (hRelation :
      model.schema.find? type relation = some definition)
    (hIds :
      service.tables.objectIds type (.snapshot txid) = .ok ids)
    (hAllows :
      service.AllowsAlong course txid user relation ⟨type, id⟩) :
    id ∈ ids := by
  rcases Engine.occupied_of_allowed hModel hWellFormed hAllows
    with ⟨parts, hParts, hParse⟩
  have hObject : parts.object = ⟨type, id⟩ :=
    ObjectRef.eq_of_parse?_text
      (hWellFormed.isName hRelation) hParse
  rcases hParts with
    ⟨_, hTxid, tuple, hTuple, hVisible, rfl⟩ | ⟨_, hKey, _⟩
  · cases hTxid
    rw [Tables.mem_objectIds_iff hIds]
    exact ⟨tuple, hTuple, hVisible, hObject⟩
  · exact absurd hKey List.not_mem_nil

------------------------------------------------------------
-- Lists
------------------------------------------------------------

/- There are no more ids than rows. -/
theorem length_ids_le
    (hIds :
      service.tables.objectIds type (.snapshot txid) = .ok ids)
    (hRows :
      service.tables.tuples.length ≤ Numeral.largestInt64) :
    ids.length ≤ Numeral.largestInt64 :=
  (Int.ofNat_le.mpr (Tables.length_objectIds_le hIds)).trans hRows

/- The ids among some of the objects that a list names. -/
def allowedIds
    (service : Service Shared)
    (courses : (object : Bytes) → Clock.Course)
    (txid : Int)
    (user relation type : Bytes)
    (ids : List Bytes) : List Bytes :=
  ids.filter fun id =>
    service.AllowsAlong (courses (ObjectRef.text ⟨type, id⟩))
      txid user relation ⟨type, id⟩

theorem allowedObjectsAlong_eq :
    service.allowedObjectsAlong courses txid user relation type
        ids =
      (service.allowedIds courses txid user relation type
        ids).map fun id => ObjectRef.text ⟨type, id⟩ := by
  rw [allowedObjectsAlong, List.filter_map]
  rfl

/- Where the time suffices, the same ids are always named. -/
theorem allowedIds_eq
    {others : Bytes → Clock.Course}
    (hCourses : ∀ object,
      service.engine.limits.Suffices (courses object))
    (hOthers : ∀ object,
      service.engine.limits.Suffices (others object)) :
    service.allowedIds courses txid user relation type ids =
      service.allowedIds others txid user relation type ids := by
  unfold allowedIds
  refine List.filter_congr fun id _ => decide_eq_decide.mpr ?_
  exact allowsAlong_iff (hCourses _) (hOthers _)

section

variable {reference : UserRef}
variable
  (hModel : service.engine.model = some model)
  (hRelation :
    model.schema.find? type relation = some definition)
  (hIds :
    service.tables.objectIds type (.snapshot txid) = .ok ids)

include hModel hRelation hIds

/- No object that is allowed is missing. -/
theorem mem_allowedIds_iff
    (hWellFormed : model.schema.WellFormed)
    (id : Bytes) :
    id ∈ service.allowedIds courses txid user relation type ids ↔
      service.AllowsAlong (courses (ObjectRef.text ⟨type, id⟩))
        txid user relation ⟨type, id⟩ := by
  rw [allowedIds, List.mem_filter, decide_eq_true_iff]
  refine and_iff_right_of_imp fun hAllows => ?_
  exact mem_of_allowsAlong hModel hWellFormed hRelation hIds
    hAllows

variable
  (hUser : UserRef.parse? user = some reference)
  (hTxid : service.tables.lastTxid = .ok txid)

include hUser hTxid

/- A page is cut out of the objects that are allowed. -/
theorem listObjectsAlong_eq
    {token : Bytes}
    {offset : UInt64}
    (hToken : Page.readToken token = .ok offset)
    (courses : Bytes → Clock.Course)
    (size : UInt64) :
    service.listObjectsAlong courses user relation type size
        token =
      Page.cut
        ((service.allowedIds courses txid user relation type
          ids).map fun id => ObjectRef.text ⟨type, id⟩)
        offset (Page.effectiveSize size) := by
  have hRead : readUser (some user) = .ok (some reference) := by
    rw [readUser, hUser]
  rw [listObjectsAlong, hToken, hRead, hModel]
  simp only [Except.bind, bind, hRelation, hTxid, hIds]
  exact congrArg
    (fun items => Page.cut items offset (Page.effectiveSize size))
    allowedObjectsAlong_eq

/-
  All pages together name the objects that are allowed, if
  these are the same ones whenever a page is read.
-/
theorem delivers_listObjects
    {allowed : List Bytes}
    (clock : (token object : Bytes) → Clock.Course)
    (hSame : ∀ token,
      service.allowedIds (clock token) txid user relation type
        ids = allowed)
    (hLength : ids.length ≤ Numeral.largestInt64)
    (size : UInt64) :
    Page.Delivers
      (fun token =>
        service.listObjectsAlong (clock token) user relation type
          size token)
      size
      (allowed.map fun id => ObjectRef.text ⟨type, id⟩) := by
  have hShort :
      (allowed.map fun id =>
        ObjectRef.text ⟨type, id⟩).length ≤
          Numeral.largestInt64 := by
    rw [List.length_map, ← hSame []]
    exact (Int.ofNat_le.mpr (List.length_filter_le _ _)).trans
      hLength
  refine Page.delivers_of_cut hShort fun token offset hToken => ?_
  rw [listObjectsAlong_eq hModel hRelation hIds hUser hTxid
    hToken, hSame token]

end

/-
  All pages of a list, whenever they are read, together name
  the objects on which a check is allowed, and no others: in
  bytewise order of their ids, and none twice. The rows of a
  table have signed 64-bit numbers, so there are no more.
-/
theorem listObjects_complete
    [SharedCache Shared]
    {reference : UserRef}
    (hReachable : service.Reachable)
    (hModel : service.engine.model = some model)
    (hDeadline : service.engine.limits.deadline = 0)
    (hRows :
      service.tables.tuples.length ≤ Numeral.largestInt64)
    (hUser : UserRef.parse? user = some reference)
    (hRelation :
      model.schema.find? type relation = some definition)
    (size : UInt64)
    (clock : Bytes → Int)
    (now : Int) :
    ∃ (txid : Int) (ids : List Bytes),
      service.tables.lastTxid = .ok txid ∧
        ids.Pairwise (· < ·) ∧
        (∀ id, id ∈ ids ↔
          service.Allows now txid user relation ⟨type, id⟩) ∧
        Page.Collects
          (fun token =>
            service.listObjects (clock token) user relation type
              size token)
          [] (ids.map fun id => ObjectRef.text ⟨type, id⟩) := by
  have hMatched := hReachable.matched
  have hMissing := hMatched.steady.missing
  have hCompiled :=
    (hMatched.loaded model (by rw [hModel]; rfl)).2.1
  have hWellFormed := wellFormed_of_compile hCompiled
  have hTxid :
      service.tables.lastTxid = .ok service.tables.last :=
    Tables.lastTxid_eq hMissing
  rcases Tables.exists_objectIds hMissing type
      (.snapshot service.tables.last) with ⟨found, hIds⟩
  refine ⟨service.tables.last,
    service.allowedIds (fun _ => .still now) service.tables.last
      user relation type found,
    hTxid, (Tables.pairwise_objectIds hIds).filter _,
    mem_allowedIds_iff hModel hRelation hIds hWellFormed, ?_⟩
  have hSame : ∀ token,
      service.allowedIds (fun _ => .still (clock token))
          service.tables.last user relation type found =
        service.allowedIds (fun _ => .still now)
          service.tables.last user relation type found :=
    fun _ => allowedIds_eq (fun _ => .inl hDeadline)
      fun _ => .inl hDeadline
  exact (delivers_listObjects hModel hRelation hIds hUser hTxid
    (fun token _ => .still (clock token)) hSame
    (length_ids_le hIds hRows) size).collects

end Service

------------------------------------------------------------
-- An Example
------------------------------------------------------------

/- Users are friends of each other. -/
namespace Friends

def source : Bytes :=
  utf8 "model
  schema 1.1
type user
  relations
    define friend: [user]
"

def alice : Bytes := utf8 "user:alice"

/- Alice is a friend of Bob and of Carol. -/
def writes : List TupleKey :=
  [⟨alice, utf8 "friend", utf8 "user:carol"⟩,
    ⟨alice, utf8 "friend", utf8 "user:bob"⟩]

def service : Service Keyspace :=
  Editions.service.follow
    [.operation 1000 (.writeModel source true),
      .operation 2000 (.write writes [])]

theorem service_reachable : service.Reachable :=
  (Service.Reachable.blank Editions.service_blank).follow _

theorem exists_relation :
    ∃ model definition,
      service.engine.model = some model ∧
        model.schema.find? (utf8 "user") (utf8 "friend") =
          some definition := by
  have hFound :
      (service.engine.model.bind fun model =>
        model.schema.find? (utf8 "user")
          (utf8 "friend")).isSome := by
    decide +kernel
  rcases Option.isSome_iff_exists.mp hFound with
    ⟨definition, hDefinition⟩
  rcases Option.bind_eq_some_iff.mp hDefinition with
    ⟨model, hModel, hRelation⟩
  exact ⟨model, definition, hModel, hRelation⟩

/- Alice is a friend of Bob, but not one of herself. -/
theorem friends_allowed :
    service.Allows 3000 1 alice (utf8 "friend")
        ⟨utf8 "user", utf8 "bob"⟩ ∧
      ¬ service.Allows 3000 1 alice (utf8 "friend")
        ⟨utf8 "user", utf8 "alice"⟩ := by
  decide +kernel

/- There is one friend on a page, and Bob is one of them. -/
theorem friends_listed :
    ∃ (txid : Int) (ids : List Bytes),
      service.tables.lastTxid = .ok txid ∧
        ids.Pairwise (· < ·) ∧
        utf8 "bob" ∈ ids ∧ utf8 "alice" ∉ ids ∧
        Page.Collects
          (fun token =>
            service.listObjects 3000 alice (utf8 "friend")
              (utf8 "user") 1 token)
          [] (ids.map fun id =>
            ObjectRef.text ⟨utf8 "user", id⟩) := by
  rcases exists_relation with
    ⟨model, definition, hModel, hRelation⟩
  have hUser :
      UserRef.parse? alice =
        some { object := ⟨utf8 "user", utf8 "alice"⟩ } := by
    decide +kernel
  obtain ⟨hDeadline, hRows, hOne⟩ :
      service.engine.limits.deadline = 0 ∧
        service.tables.tuples.length ≤ Numeral.largestInt64 ∧
        service.tables.lastTxid.toOption = some 1 := by
    decide +kernel
  rcases Service.listObjects_complete service_reachable hModel
      hDeadline hRows hUser hRelation 1 (fun _ => 3000) 3000 with
    ⟨txid, ids, hTxid, hOrdered, hExact, hPages⟩
  have hLast : txid = 1 := by
    rw [hTxid] at hOne
    exact Option.some.inj hOne
  subst hLast
  refine ⟨1, ids, hTxid, hOrdered, ?_⟩
  rw [hExact, hExact]
  exact ⟨friends_allowed.1, friends_allowed.2, hPages⟩

end Friends

end Rebac
