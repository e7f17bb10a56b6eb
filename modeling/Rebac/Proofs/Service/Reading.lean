import Rebac.Proofs.Service.Paging

/-
  This file proves which tuples are read for a request, and
  when these are just the tuples that it names.

  A request gives the texts of a user, of a relation and of an
  object, or some of them. A plain user also stands for the
  groups that are named after it: for reading a user without a
  relation, nothing is asked of the relation of a stored one.
  So the tuples of these groups are read besides those of the
  user, and nothing else is.

  Key definitions include:
    * `UserRef.IsGroupOf`
    * `Service.ReadRequest.Names`
    * `Service.ReadRequest.Covers`

  Key theorems include:
    * `UserRef.agrees_iff`
    * `Service.ReadRequest.admits_iff_covers`
    * `Service.exists_covered`
    * `Service.reads_named_iff`
-/

namespace Rebac

------------------------------------------------------------
-- Users
------------------------------------------------------------

namespace UserRef

variable {requested held : UserRef}

/- Whether a user is a group that is named after an object. -/
def IsGroupOf (text : Bytes) (user : UserRef) : Prop :=
  user.relation ≠ none ∧ user.object.text = text

instance (text : Bytes) (user : UserRef) :
    Decidable (user.IsGroupOf text) := by
  unfold IsGroupOf
  infer_instance

/- The text of a group has the sign of a group in addition. -/
theorem IsGroupOf.text_ne
    {named : Bytes}
    (hGroup : held.IsGroupOf named) :
    held.text ≠ named := by
  rcases hGroup with ⟨hRelation, rfl⟩
  rcases Option.ne_none_iff_exists'.mp hRelation with
    ⟨relation, hRelation⟩
  rw [text, hRelation]
  intro hSame
  exact absurd (List.append_right_eq_self.mp hSame)
    (List.cons_ne_nil _ _)

/- No group is named after a group. -/
theorem not_isGroupOf_of_relation
    {relation : Bytes}
    (hHeld : UserRef.parse? held.text = some held)
    (hRelation : requested.relation = some relation) :
    ¬ held.IsGroupOf requested.text := by
  rintro ⟨-, hText⟩
  have hPlain :=
    ObjectRef.hash_not_mem_of_parse? (parse?_object hHeld)
  rw [hText, text, hRelation] at hPlain
  exact hPlain (List.mem_append_right _ List.mem_cons_self)

/-
  A held user agrees with a requested one if their texts are
  the same, or if it is a group named after it.
-/
theorem agrees_iff
    (hRequested : UserRef.parse? requested.text = some requested)
    (hHeld : UserRef.parse? held.text = some held) :
    held.object = requested.object ∧
        TupleFilter.agrees requested.relation
          (held.relation.getD []) = true ↔
      held.text = requested.text ∨
        held.IsGroupOf requested.text := by
  rw [text_inj hHeld hRequested, UserRef.ext_iff]
  cases hRelation : requested.relation with
  | none =>
      have hText : requested.text = requested.object.text := by
        rw [text, hRelation]
      rw [TupleFilter.agrees_none, IsGroupOf, hText,
        ObjectRef.text_inj (parse?_object hHeld)
          (parse?_object hRequested)]
      tauto
  | some relation =>
      -- no relation is written like the empty one
      have hNone : relation ≠ [] := fun hEmpty =>
        relation_ne_nil_of_parse? hRequested (hEmpty ▸ hRelation)
      rw [TupleFilter.agrees_some_iff,
        or_iff_left (not_isGroupOf_of_relation hHeld hRelation)]
      refine and_congr_right fun _ => ?_
      cases held.relation with
      | none => simpa using hNone.symm
      | some own => simp

end UserRef

------------------------------------------------------------
-- Filters
------------------------------------------------------------

namespace TupleFilter

variable {text : Option Bytes}

/- What is not expected does not matter. -/
theorem agrees_iff
    {expected : Option Bytes}
    {found : Bytes} :
    agrees expected found = true ↔
      ∀ required ∈ expected, found = required := by
  cases expected <;> simp

/- The filter on the user of a request. -/
theorem agrees_user_iff
    {user : Option UserRef}
    {held : UserRef}
    (hUser : Service.readUser text = .ok user)
    (hHeld : UserRef.parse? held.text = some held) :
    agrees (user.map fun user => user.object.type)
          held.object.type = true ∧
        agrees (user.map fun user => user.object.id)
          held.object.id = true ∧
        agrees (user.bind fun user => user.relation)
          (held.relation.getD []) = true ↔
      ∀ named ∈ text,
        held.text = named ∨ held.IsGroupOf named := by
  unfold Service.readUser at hUser
  split at hUser
  · cases hUser
    simp
  · next named =>
      split at hUser
      · cases hUser
      · next requested hParse =>
          cases hUser
          have hText := UserRef.text_of_parse? hParse
          rw [← hText] at hParse
          have hAgrees := UserRef.agrees_iff hParse hHeld
          rw [ObjectRef.ext_iff, hText, and_assoc] at hAgrees
          simpa using hAgrees

/- And on its object. -/
theorem agrees_object_iff
    {object : Option ObjectRef}
    {held : ObjectRef}
    (hObject : Service.readObject text = .ok object)
    (hHeld : ObjectRef.parse? held.text = some held) :
    agrees (object.map fun object => object.type)
          held.type = true ∧
        agrees (object.map fun object => object.id)
          held.id = true ↔
      ∀ named ∈ text, held.text = named := by
  unfold Service.readObject at hObject
  split at hObject
  · cases hObject
    simp
  · next named =>
      split at hObject
      · cases hObject
      · next requested hParse =>
          cases hObject
          have hText := ObjectRef.text_of_parse? hParse
          rw [← hText] at hParse
          have hSame := ObjectRef.text_inj hHeld hParse
          rw [ObjectRef.ext_iff, hText] at hSame
          simpa using hSame.symm

end TupleFilter

------------------------------------------------------------
-- Requests
------------------------------------------------------------

namespace Service

namespace ReadRequest

variable {request : ReadRequest}
variable {tuple : StoredTuple}

/- Whether a live tuple has the texts that a request gives. -/
def Names (request : ReadRequest) (tuple : StoredTuple) : Prop :=
  tuple.Live ∧
    (∀ user ∈ request.user, tuple.key.user = user) ∧
    (∀ relation ∈ request.relation,
      tuple.key.relation = relation) ∧
    ∀ object ∈ request.object, tuple.key.object = object

/- Or has a group that is named after the user instead. -/
def Covers (request : ReadRequest) (tuple : StoredTuple) : Prop :=
  tuple.Live ∧
    (∀ user ∈ request.user,
      tuple.key.user = user ∨ tuple.parts.user.IsGroupOf user) ∧
    (∀ relation ∈ request.relation,
      tuple.key.relation = relation) ∧
    ∀ object ∈ request.object, tuple.key.object = object

instance (request : ReadRequest) :
    DecidablePred request.Names := by
  unfold Names StoredTuple.Live
  infer_instance

instance (request : ReadRequest) :
    DecidablePred request.Covers := by
  unfold Covers StoredTuple.Live
  infer_instance

theorem Names.covers (hNames : request.Names tuple) :
    request.Covers tuple :=
  ⟨hNames.1, fun user hUser => .inl (hNames.2.1 user hUser),
    hNames.2.2⟩

/- What is named is told by the key. -/
theorem Names.of_key_eq
    {other : StoredTuple}
    (hNames : request.Names other)
    (hLive : tuple.Live)
    (hKey : other.key = tuple.key) :
    request.Names tuple :=
  ⟨hLive, hKey ▸ hNames.2⟩

/- A tuple that is covered is named, or else has a group. -/
theorem Covers.names_iff (hCovers : request.Covers tuple) :
    request.Names tuple ↔
      ∀ user ∈ request.user, ¬ tuple.parts.user.IsGroupOf user := by
  constructor
  · intro hNames user hUser hGroup
    exact hGroup.text_ne (hNames.2.1 user hUser)
  · intro hNone
    refine ⟨hCovers.1, fun user hUser => ?_, hCovers.2.2⟩
    exact (hCovers.2.1 user hUser).resolve_right (hNone user hUser)

/- The filter of a request lets through what it covers. -/
theorem admits_iff_covers
    {user : Option UserRef}
    {object : Option ObjectRef}
    (hUser : readUser request.user = .ok user)
    (hObject : readObject request.object = .ok object)
    (hValid : tuple.parts.Valid) :
    (readFilter request user object {}).Admits tuple ↔
      request.Covers tuple := by
  rcases hValid.references with ⟨hHeldUser, hHeldObject⟩
  have hUsers := TupleFilter.agrees_user_iff hUser hHeldUser
  have hObjects := TupleFilter.agrees_object_iff hObject hHeldObject
  rw [Covers, StoredTuple.key, TupleKey.Parts.key, ← hUsers,
    ← hObjects, ← TupleFilter.agrees_iff]
  constructor
  · rintro ⟨hType, hId, hGroup, hRelation, hObjectType, hObjectId,
      hLive⟩
    exact ⟨hLive, ⟨hType, hId, hGroup⟩, hRelation, hObjectType,
      hObjectId⟩
  · rintro ⟨hLive, ⟨hType, hId, hGroup⟩, hRelation, hObjectType,
      hObjectId⟩
    exact ⟨hType, hId, hGroup, hRelation, hObjectType, hObjectId,
      hLive⟩

/- The user of a request is read if its text can be. -/
theorem exists_readUser
    (hUser : ∀ text ∈ request.user, (UserRef.parse? text).isSome) :
    ∃ user, readUser request.user = .ok user := by
  cases hText : request.user with
  | none => exact ⟨none, rfl⟩
  | some text =>
      rcases Option.isSome_iff_exists.mp (hUser text hText) with
        ⟨user, hParse⟩
      exact ⟨some user, by rw [readUser, hParse]⟩

/- And so is its object. -/
theorem exists_readObject
    (hObject : ∀ text ∈ request.object,
      (ObjectRef.parse? text).isSome) :
    ∃ object, readObject request.object = .ok object := by
  cases hText : request.object with
  | none => exact ⟨none, rfl⟩
  | some text =>
      rcases Option.isSome_iff_exists.mp (hObject text hText) with
        ⟨object, hParse⟩
      exact ⟨some object, by rw [readObject, hParse]⟩

end ReadRequest

------------------------------------------------------------
-- Pages
------------------------------------------------------------

variable {Shared : Type}
variable {service : Service Shared}
variable {request : ReadRequest}

/- All that a request covers is read, page by page. -/
theorem exists_covered
    (request : ReadRequest)
    (hMissing : service.tables.missing = [])
    (hRows :
      service.tables.tuples.length ≤ Numeral.largestInt64)
    (hSound : service.tables.Sound)
    (hUser : ∀ text ∈ request.user, (UserRef.parse? text).isSome)
    (hObject : ∀ text ∈ request.object,
      (ObjectRef.parse? text).isSome) :
    ∃ rows,
      service.tables.Lists request.Covers rows ∧
        Page.Delivers
          (fun token => service.read { request with token := token })
          request.size (rows.map StoredTuple.key) := by
  rcases ReadRequest.exists_readUser hUser with ⟨user, hUser⟩
  rcases ReadRequest.exists_readObject hObject with
    ⟨object, hObject⟩
  rcases exists_tuples hMissing hRows hUser hObject request.size
    with ⟨rows, hLists, hDelivers⟩
  refine ⟨rows, hLists.congr fun tuple hTuple => ?_, hDelivers⟩
  exact ReadRequest.admits_iff_covers hUser hObject
    (hSound.valid tuple hTuple)

/- Where all that is read is named, all that is covered is. -/
theorem names_of_delivered
    {rows named : List StoredTuple}
    (hCovers : service.tables.Lists request.Covers rows)
    (hDelivers : Page.Delivers
      (fun token => service.read { request with token := token })
      request.size (rows.map StoredTuple.key))
    (hNames : service.tables.Lists request.Names named)
    (hNamed : Page.Delivers
      (fun token => service.read { request with token := token })
      request.size (named.map StoredTuple.key)) :
    ∀ tuple ∈ service.tables.tuples,
      request.Covers tuple → request.Names tuple := by
  intro tuple hTuple hCover
  have hSame := hDelivers.collects.unique hNamed.collects
  have hKey : tuple.key ∈ named.map StoredTuple.key := by
    rw [← hSame]
    exact List.mem_map_of_mem
      ((hCovers.mem_iff tuple).mpr ⟨hTuple, hCover⟩)
  rcases List.mem_map.mp hKey with ⟨other, hOther, hOtherKey⟩
  exact ((hNames.mem_iff other).mp hOther).2.of_key_eq
    hCover.1 hOtherKey

/-
  The pages of a request list the live tuples that have the
  texts it gives, or a group that is named after its user,
  the newest first. So they list those with the given texts,
  and nothing else, just if there is no tuple of such a group.
-/
theorem reads_named_iff
    (request : ReadRequest)
    (hMissing : service.tables.missing = [])
    (hRows :
      service.tables.tuples.length ≤ Numeral.largestInt64)
    (hSound : service.tables.Sound)
    (hUser : ∀ text ∈ request.user, (UserRef.parse? text).isSome)
    (hObject : ∀ text ∈ request.object,
      (ObjectRef.parse? text).isSome) :
    (∃ rows,
      service.tables.Lists request.Covers rows ∧
        Page.Delivers
          (fun token => service.read { request with token := token })
          request.size (rows.map StoredTuple.key)) ∧
    ((∃ rows,
      service.tables.Lists request.Names rows ∧
        Page.Delivers
          (fun token => service.read { request with token := token })
          request.size (rows.map StoredTuple.key)) ↔
      ∀ tuple ∈ service.tables.tuples, request.Covers tuple →
        ∀ user ∈ request.user,
          ¬ tuple.parts.user.IsGroupOf user) := by
  have hCovered :=
    exists_covered request hMissing hRows hSound hUser hObject
  refine ⟨hCovered, ?_⟩
  rcases hCovered with ⟨rows, hCovers, hDelivers⟩
  constructor
  · rintro ⟨named, hNames, hNamed⟩ tuple hTuple hCover
    rw [← hCover.names_iff]
    exact names_of_delivered hCovers hDelivers hNames hNamed
      tuple hTuple hCover
  · intro hNone
    refine ⟨rows, hCovers.congr fun tuple hTuple => ?_, hDelivers⟩
    constructor
    · intro hCover
      exact hCover.names_iff.mpr (hNone tuple hTuple hCover)
    · exact ReadRequest.Names.covers

end Service

------------------------------------------------------------
-- An Example
------------------------------------------------------------

/- A team may view one document, and its members another. -/
namespace Namesakes

def team : Bytes := utf8 "team:dev"

def members : Bytes := utf8 "team:dev#member"

def viewer : Bytes := utf8 "viewer"

def service : Service Keyspace :=
  Editions.service.follow
    [.operation 1000 (.write [⟨team, viewer, utf8 "doc:plan"⟩] []),
      .operation 2000
        (.write [⟨members, viewer, utf8 "doc:readme"⟩] [])]

theorem service_reachable : service.Reachable :=
  (Service.Reachable.blank Editions.service_blank).follow _

theorem rows_le :
    service.tables.tuples.length ≤ Numeral.largestInt64 := by
  decide +kernel

/- The tuple of the members is read for the team. -/
theorem members_read :
    (UserRef.parse? team).isSome ∧
      ¬ ∃ rows,
        service.tables.Lists
            (Service.ReadRequest.Names { user := some team }) rows ∧
          Page.Delivers
            (fun token =>
              service.read { user := some team, token := token })
            100 (rows.map StoredTuple.key) := by
  have hTeam : (UserRef.parse? team).isSome := by decide +kernel
  refine ⟨hTeam, ?_⟩
  rintro ⟨named, hNames, hNamed⟩
  have hSteady := service_reachable.matched.steady
  rcases Service.exists_covered { user := some team }
      hSteady.missing rows_le hSteady.sound
      (by simpa using hTeam) nofun with
    ⟨rows, hCovers, hDelivers⟩
  have hMembers : ∃ tuple ∈ service.tables.tuples,
      Service.ReadRequest.Covers { user := some team } tuple ∧
        ¬ Service.ReadRequest.Names { user := some team } tuple := by
    decide +kernel
  rcases hMembers with ⟨tuple, hTuple, hCover, hUnnamed⟩
  exact hUnnamed (Service.names_of_delivered hCovers hDelivers
    hNames hNamed tuple hTuple hCover)

/- But only that tuple is read for the members. -/
theorem members_alone :
    service.tables.missing = [] ∧
      service.tables.tuples.length ≤ Numeral.largestInt64 ∧
      service.tables.Sound ∧
      (UserRef.parse? members).isSome ∧
      ∃ rows,
        service.tables.Lists
            (Service.ReadRequest.Names { user := some members })
            rows ∧
          Page.Delivers
            (fun token =>
              service.read { user := some members, token := token })
            100 (rows.map StoredTuple.key) := by
  have hSteady := service_reachable.matched.steady
  have hMembers : (UserRef.parse? members).isSome := by
    decide +kernel
  refine ⟨hSteady.missing, rows_le, hSteady.sound, hMembers, ?_⟩
  have hReads := Service.reads_named_iff { user := some members }
    hSteady.missing rows_le hSteady.sound
    (by simpa using hMembers) nofun
  have hNone : ∀ tuple ∈ service.tables.tuples,
      Service.ReadRequest.Covers { user := some members } tuple →
        ¬ tuple.parts.user.IsGroupOf members := by
    decide +kernel
  refine hReads.2.mpr ?_
  intro tuple hTuple hCover user hUser
  cases hUser
  exact hNone tuple hTuple hCover

end Namesakes

end Rebac
