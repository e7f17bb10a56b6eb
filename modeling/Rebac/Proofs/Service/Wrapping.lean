import Rebac.Proofs.Service.Paging

/-
  This file proves for which offsets and sizes a page is the
  part of the list that they stand for.

  Both may be any numbers of 64 bits. A page that is cut out of
  a list has to begin behind the list, or end at a number of 64
  bits. A page that is looked up has to be the first one unless
  its offset has 63 bits and its size is not the largest
  number: one more than that is zero, which is no limit, and
  without a limit nothing is skipped.

  Key definitions include:
    * `Page.CutInRange`
    * `Page.FoundInRange`
    * `Service.matching`
    * `Service.objects`
    * `Service.users`

  Key theorems include:
    * `Page.cut_eq_part_iff`
    * `Page.ofLookup_eq_part_iff`
    * `Service.matching_present`
    * `Service.objects_present`
    * `Service.users_present`
    * `Service.pages_eq_part_iff`
-/

namespace Rebac

namespace Page

variable {Element : Type}
variable {items : List Element}
variable {offset size : UInt64}

------------------------------------------------------------
-- Cut Pages
------------------------------------------------------------

/- Where a page may be cut out of a list. -/
def CutInRange
    (items : List Element)
    (offset size : UInt64) : Prop :=
  items.length ≤ offset.toNat ∨
    offset.toNat + size.toNat < UInt64.size

instance (items : List Element) (offset size : UInt64) :
    Decidable (CutInRange items offset size) :=
  inferInstanceAs (Decidable (_ ∨ _))

/- Elsewhere there is no page at all. -/
theorem cut_eq_part_iff :
    cut items offset size =
        .ok (part items offset.toNat size.toNat) ↔
      CutInRange items offset size := by
  refine ⟨fun hPart => ?_, cut_eq_part⟩
  by_cases hWithin : offset.toNat < items.length
  · refine .inr (Nat.not_le.mp fun hWraps => ?_)
    rw [cut_eq_error hWithin hWraps] at hPart
    cases hPart
  · exact .inl (Nat.not_lt.mp hWithin)

------------------------------------------------------------
-- Pages that are Looked Up
------------------------------------------------------------

/- Where a page of a list may be looked up. -/
def FoundInRange
    (items : List Element)
    (offset size : UInt64) : Prop :=
  items = [] ∨ offset = 0 ∨
    offset.toNat ≤ Numeral.largestInt64 ∧
      size.toNat + 1 < UInt64.size

theorem ofLookup_nil :
    ofLookup ((window offset size).apply ([] : List Element))
        offset size =
      part [] offset.toNat size.toNat := by
  have hWindow :
      (window offset size).apply ([] : List Element) = [] := by
    rw [Window.apply, Window.limited, List.drop_nil,
      List.take_nil, ite_self, ite_self]
  rw [hWindow, ofLookup, part, List.drop_nil, List.length_nil,
    if_neg (Nat.not_lt_zero _), if_neg (Nat.not_lt_zero _)]

/- Out of range, what is looked up begins with the list. -/
theorem take_apply_window
    (hItems : items.length ≤ Numeral.largestInt64)
    (hRange : ¬ FoundInRange items offset size) :
    ((window offset size).apply items).take size.toNat =
      items.take size.toNat := by
  by_cases hSize : size.toNat + 1 < UInt64.size
  · have hOffset : Numeral.largestInt64 < offset.toNat :=
      Int.not_le.mp fun hOffset =>
        hRange (.inr (.inr ⟨hOffset, hSize⟩))
    have hStart := Int.toNat_of_nonpos
      (Int.le_of_lt (Window.signed_neg hOffset))
    rw [apply_window hItems hSize, hStart, List.drop_zero,
      List.take_take, Nat.min_eq_left (Nat.le_succ _)]
  · rw [apply_window_of_wraps
      (Nat.le_antisymm size.toNat_lt_size (Nat.not_lt.mp hSize))]

/- The part of the list behind the offset is shorter. -/
theorem ofLookup_ne_part
    (hItems : items.length ≤ Numeral.largestInt64)
    (hPositive : 0 < size.toNat)
    (hRange : ¬ FoundInRange items offset size) :
    ofLookup ((window offset size).apply items) offset size ≠
      part items offset.toNat size.toNat := by
  intro hPart
  have hLengths :
      min size.toNat items.length =
        min size.toNat (items.length - offset.toNat) := by
    have hTaken := congrArg Page.items hPart
    dsimp only [ofLookup, part] at hTaken
    rw [take_apply_window hItems hRange] at hTaken
    simpa only [List.length_take, List.length_drop]
      using congrArg List.length hTaken
  rw [FoundInRange, not_or, not_or, ← List.length_eq_zero_iff,
    ← UInt64.toNat_inj, UInt64.toNat_zero] at hRange
  rw [Numeral.largestInt64] at hItems hRange
  rw [UInt64.size] at hRange
  omega

/- So a page is found in range only. -/
theorem ofLookup_eq_part_iff
    (hItems : items.length ≤ Numeral.largestInt64)
    (hPositive : 0 < size.toNat) :
    ofLookup ((window offset size).apply items) offset size =
        part items offset.toNat size.toNat ↔
      FoundInRange items offset size := by
  refine ⟨fun hPart => ?_, ?_⟩
  · exact Classical.byContradiction fun hRange =>
      ofLookup_ne_part hItems hPositive hRange hPart
  · rintro (rfl | hBounds)
    · exact ofLookup_nil
    · exact ofLookup_eq_part hItems hBounds

end Page

namespace Service

variable {Shared : Type}
variable {service : Service Shared}

------------------------------------------------------------
-- Whole Lists
------------------------------------------------------------

/- All tuples that a request names, on whatever page. -/
def matching
    (request : ReadRequest)
    (service : Service Shared) :
    Except StoreError (List TupleKey) := do
  let user ← readUser request.user
  let object ← readObject request.object
  let found ←
    service.tables.find (readFilter request user object {})
  return found.map StoredTuple.key

/- All objects of a type on which a user has a relation. -/
def objects
    (now : Int)
    (user relation type : Bytes)
    (service : Service Shared) :
    Except StoreError (List Bytes) := do
  let _ ← readUser (some user)
  match service.engine.model with
  | none => .error .noActiveModel
  | some model =>
      if (model.schema.find? type relation).isNone then
        .error (.undefinedRelation relation type)
      else do
        let txid ← service.tables.lastTxid
        let ids ← service.tables.objectIds type (.snapshot txid)
        return service.allowedObjects now txid user relation type
          ids

/- All users of given types with a relation on an object. -/
def users
    (object relation : Bytes)
    (types : List Bytes)
    (service : Service Shared) :
    Except StoreError (List Bytes) :=
  match ObjectRef.parse? object with
  | none => .error (.invalidKey (.object object))
  | some reference => do
      let found ←
        service.tables.tuplesOn .live reference (some relation)
      let users := (found.map fun tuple => tuple.parts.user).filter
        fun user => types.isEmpty || types.contains user.object.type
      return users.map UserRef.text

/- A lookup of a window shows it of all that is found. -/
theorem find_readFilter
    (tables : Tables)
    (request : ReadRequest)
    (user : Option UserRef)
    (object : Option ObjectRef)
    (window : Window) :
    tables.find (readFilter request user object window) =
      (tables.find (readFilter request user object {})).map
        window.apply := by
  rw [Tables.find, Tables.find]
  cases tables.require .tuples <;> rfl

/- A page of tuples is looked up among all of them. -/
theorem read_eq
    (request : ReadRequest) :
    service.read request = (do
      let offset ← Page.readToken request.token
      let keys ← service.matching request
      let size := Page.effectiveSize request.size
      return Page.ofLookup
        ((Page.window offset size).apply keys) offset size) := by
  rw [read, matching]
  simp only [bind_assoc, pure_bind]
  congr 1
  funext offset
  congr 1
  funext user
  congr 1
  funext object
  rw [find_readFilter]
  cases service.tables.find
      (readFilter request user object {}) with
  | error error => rfl
  | ok found =>
      exact congrArg
        (fun keys => Except.ok
          (Page.ofLookup keys offset
            (Page.effectiveSize request.size)))
        (Window.map_apply StoredTuple.key _ found)

theorem read_of_matching
    {request : ReadRequest}
    {token : Bytes}
    {offset : UInt64}
    {keys : List TupleKey}
    (hToken : Page.readToken token = .ok offset)
    (hKeys : service.matching request = .ok keys)
    (size : UInt64) :
    service.read { request with size := size, token := token } =
      .ok (Page.ofLookup
        ((Page.window offset (Page.effectiveSize size)).apply keys)
        offset (Page.effectiveSize size)) := by
  have hSame :
      service.matching
          { request with size := size, token := token } =
        .ok keys := hKeys
  rw [read_eq, hToken, hSame]
  rfl

/- A page of objects is cut out of all of them. -/
theorem listObjects_eq_cut
    (now : Int)
    (user relation type : Bytes)
    (size : UInt64)
    (token : Bytes) :
    service.listObjects now user relation type size token = (do
      let offset ← Page.readToken token
      let items ← service.objects now user relation type
      Page.cut items offset (Page.effectiveSize size)) := by
  rw [listObjects, listObjectsAlong, objects]
  simp only [bind_assoc]
  congr 1
  funext offset
  congr 1
  funext _
  cases service.engine.model with
  | none => rfl
  | some model =>
      dsimp only
      split
      · rfl
      · simp only [bind_assoc, pure_bind, allowedObjects]

/- So is a page of users. -/
theorem listUsers_eq_cut
    (object relation : Bytes)
    (types : List Bytes)
    (size : UInt64)
    (token : Bytes) :
    service.listUsers object relation types size token = (do
      let offset ← Page.readToken token
      let items ← service.users object relation types
      Page.cut items offset (Page.effectiveSize size)) := by
  rw [listUsers, users]
  congr 1
  funext offset
  cases ObjectRef.parse? object with
  | none => rfl
  | some reference => simp only [bind_assoc, pure_bind]

/- Where no table is missing, all of them are there. -/
theorem matching_present
    {request : ReadRequest}
    {user : Option UserRef}
    {object : Option ObjectRef}
    (hMissing : service.tables.missing = [])
    (hUser : readUser request.user = .ok user)
    (hObject : readObject request.object = .ok object) :
    ∃ rows,
      service.tables.Lists
          (readFilter request user object {}).Admits rows ∧
        service.matching request =
          .ok (rows.map StoredTuple.key) := by
  rcases Tables.exists_lists hMissing
      (readFilter request user object {}) with
    ⟨rows, hLists, hFind⟩
  refine ⟨rows, hLists, ?_⟩
  rw [matching, hUser, hObject]
  exact congrArg
    (fun found => found.bind fun rows =>
      Except.ok (rows.map StoredTuple.key))
    (hFind {})

theorem objects_present
    {user relation type : Bytes}
    {reference : UserRef}
    {model : Model}
    {definition : RelationDefinition}
    (hMissing : service.tables.missing = [])
    (hUser : UserRef.parse? user = some reference)
    (hModel : service.engine.model = some model)
    (hRelation :
      model.schema.find? type relation = some definition)
    (now : Int) :
    ∃ items,
      service.objects now user relation type = .ok items := by
  rcases Tables.exists_objectIds hMissing type
      (.snapshot service.tables.last) with ⟨ids, hIds⟩
  rw [objects, readUser, hUser, hModel]
  simp only [Except.bind, bind, hRelation,
    Tables.lastTxid_eq hMissing, hIds]
  exact ⟨_, rfl⟩

theorem users_present
    {object : Bytes}
    {reference : ObjectRef}
    (hMissing : service.tables.missing = [])
    (hObject : ObjectRef.parse? object = some reference)
    (relation : Bytes)
    (types : List Bytes) :
    ∃ items, service.users object relation types = .ok items := by
  rcases Tables.exists_find hMissing
      { relation := some relation
        objectType := some reference.type
        objectId := some reference.id } with ⟨found, hFound⟩
  have hTuples :
      service.tables.tuplesOn .live reference (some relation) =
        .ok found := hFound
  rw [users, hObject]
  simp only [Except.bind, bind, hTuples]
  exact ⟨_, rfl⟩

------------------------------------------------------------
-- Pages in Range
------------------------------------------------------------

/-
  Whatever the token and the size, a page is the part of the
  whole list behind the offset, with the token of the next
  page exactly if there is more behind it, as long as it is in
  range, and only then.
-/
theorem pages_eq_part_iff
    (service : Service Shared)
    {token : Bytes}
    {offset : UInt64}
    (hToken : Page.readToken token = .ok offset)
    (size : UInt64) :
    (∀ (request : ReadRequest) (keys : List TupleKey),
      service.matching request = .ok keys →
      keys.length ≤ Numeral.largestInt64 →
        (service.read
            { request with size := size, token := token } =
          .ok (Page.part keys offset.toNat
            (Page.effectiveSize size).toNat) ↔
          Page.FoundInRange keys offset
            (Page.effectiveSize size))) ∧
      (∀ (now : Int) (user relation type : Bytes)
        (items : List Bytes),
        service.objects now user relation type = .ok items →
          (service.listObjects now user relation type size
              token =
            .ok (Page.part items offset.toNat
              (Page.effectiveSize size).toNat) ↔
            Page.CutInRange items offset
              (Page.effectiveSize size))) ∧
      ∀ (object relation : Bytes) (types items : List Bytes),
        service.users object relation types = .ok items →
          (service.listUsers object relation types size token =
            .ok (Page.part items offset.toNat
              (Page.effectiveSize size).toNat) ↔
            Page.CutInRange items offset
              (Page.effectiveSize size)) := by
  refine ⟨?_, ?_, ?_⟩
  · intro request keys hKeys hLength
    rw [read_of_matching hToken hKeys, Except.ok.injEq]
    exact Page.ofLookup_eq_part_iff hLength
      (Page.effectiveSize_pos size)
  · intro now user relation type items hItems
    rw [listObjects_eq_cut, hToken, hItems]
    exact Page.cut_eq_part_iff
  · intro object relation types items hItems
    rw [listUsers_eq_cut, hToken, hItems]
    exact Page.cut_eq_part_iff

end Service

------------------------------------------------------------
-- An Example
------------------------------------------------------------

namespace Friends

theorem missing_eq_nil : service.tables.missing = [] :=
  service_reachable.matched.steady.missing

theorem exists_keys :
    ∃ keys, service.matching {} = .ok keys ∧ keys.length = 2 := by
  let request : Service.ReadRequest := {}
  have hUser : Service.readUser request.user = .ok none := rfl
  have hObject : Service.readObject request.object = .ok none :=
    rfl
  rcases Service.matching_present missing_eq_nil hUser hObject with
    ⟨rows, hLists, hKeys⟩
  refine ⟨rows.map StoredTuple.key, hKeys, ?_⟩
  rw [List.length_map, hLists.same.length_eq]
  decide +kernel

theorem exists_objects :
    ∃ items,
      service.objects 3000 alice (utf8 "friend") (utf8 "user") =
        .ok items := by
  have hUser : (UserRef.parse? alice).isSome := by decide +kernel
  rcases Option.isSome_iff_exists.mp hUser with ⟨user, hUser⟩
  rcases exists_relation with
    ⟨model, definition, hModel, hRelation⟩
  exact Service.objects_present missing_eq_nil hUser hModel
    hRelation 3000

theorem exists_users :
    ∃ items,
      service.users (utf8 "user:bob") (utf8 "friend") [] =
        .ok items := by
  have hObject : (ObjectRef.parse? (utf8 "user:bob")).isSome := by
    decide +kernel
  rcases Option.isSome_iff_exists.mp hObject with
    ⟨object, hObject⟩
  exact Service.users_present missing_eq_nil hObject _ _

/- The second pages of one element are in range. -/
theorem second_read :
    Page.readToken (utf8 "1") = .ok 1 ∧
      ∃ (keys : List TupleKey) (objects users : List Bytes),
        service.matching {} = .ok keys ∧ keys.length = 2 ∧
        service.objects 3000 alice (utf8 "friend")
          (utf8 "user") = .ok objects ∧
        service.users (utf8 "user:bob") (utf8 "friend") [] =
          .ok users ∧
        service.read { size := 1, token := utf8 "1" } =
          .ok (Page.part keys 1 1) ∧
        service.listObjects 3000 alice (utf8 "friend")
          (utf8 "user") 1 (utf8 "1") =
            .ok (Page.part objects 1 1) ∧
        service.listUsers (utf8 "user:bob") (utf8 "friend") [] 1
          (utf8 "1") = .ok (Page.part users 1 1) := by
  have hToken : Page.readToken (utf8 "1") = .ok 1 := by
    decide +kernel
  rcases exists_keys with ⟨keys, hKeys, hTwo⟩
  rcases exists_objects with ⟨objects, hObjects⟩
  rcases exists_users with ⟨users, hUsers⟩
  have hLength : keys.length ≤ Numeral.largestInt64 := by
    rw [hTwo]
    decide
  have hPages := Service.pages_eq_part_iff service hToken 1
  refine ⟨hToken, keys, objects, users, hKeys, hTwo, hObjects,
    hUsers, ?_, ?_, ?_⟩
  · exact (hPages.1 {} keys hKeys hLength).mpr
      (.inr (.inr (by decide)))
  · exact (hPages.2.1 _ _ _ _ _ hObjects).mpr
      (.inr (by decide))
  · exact (hPages.2.2 _ _ _ _ hUsers).mpr (.inr (by decide))

/-
  A page of as many elements as can be asked for is not: both
  tuples are read again behind the first one.
-/
theorem largest_read :
    Page.readToken (utf8 "1") = .ok 1 ∧
      ∃ keys : List TupleKey,
        service.matching {} = .ok keys ∧ keys.length = 2 ∧
        service.read
            { size := 18446744073709551615, token := utf8 "1" } =
          .ok { items := keys } ∧
        service.read
            { size := 18446744073709551615, token := utf8 "1" } ≠
          .ok (Page.part keys 1 18446744073709551615) := by
  have hToken : Page.readToken (utf8 "1") = .ok 1 := by
    decide +kernel
  rcases exists_keys with ⟨keys, hKeys, hTwo⟩
  refine ⟨hToken, keys, hKeys, hTwo, ?_⟩
  have hRead :
      service.read
          { size := 18446744073709551615, token := utf8 "1" } =
        .ok { items := keys } := by
    have hWhole : keys.take 18446744073709551615 = keys :=
      List.take_of_length_le (by rw [hTwo]; decide)
    have hLast : ¬ 18446744073709551615 < keys.length := by
      rw [hTwo]
      decide
    refine (Service.read_of_matching hToken hKeys _).trans ?_
    rw [Page.apply_window_of_wraps (by decide)]
    exact congrArg Except.ok
      (congrArg₂ Page.mk hWhole (if_neg hLast))
  refine ⟨hRead, fun hPart => ?_⟩
  have hItems := congrArg Page.items
    (Except.ok.inj (hRead.symm.trans hPart))
  have hLength := congrArg List.length hItems
  dsimp only [Page.part] at hLength
  rw [List.length_take, List.length_drop, hTwo] at hLength
  exact absurd hLength (by decide)

end Friends

end Rebac
