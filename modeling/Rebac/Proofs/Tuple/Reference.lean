import Rebac.Proofs.Tuple.Key

/-
  This file proves that references and their written forms
  determine each other.

  A text is read as a reference exactly if that reference is
  a proper one and is written as the text. So no two texts
  are read as the same reference, and none are kept under the
  same columns of a row, where a missing relation is an empty
  text.

  Key definitions include:
    * `ObjectRef.Proper`
    * `UserRef.Proper`
    * `UserRef.Columns`
    * `UserRef.columns`

  Key theorems include:
    * `ObjectRef.parse?_eq_some_iff`
    * `UserRef.parse?_eq_some_iff`
    * `UserRef.user_columns`
    * `UserRef.read_exactly_as_written`
-/

namespace Rebac

------------------------------------------------------------
-- Objects
------------------------------------------------------------

namespace ObjectRef

/- An object that can be told from its written form. -/
structure Proper (object : ObjectRef) : Prop where
  type : Bytes.IsName object.type
  id : object.id ≠ []
  noHash : 35 ∉ object.id

/- The colon behind a name ends it, whatever the id holds. -/
theorem Proper.splitFirst_text
    {object : ObjectRef}
    (hProper : object.Proper) :
    Bytes.splitFirst 58 object.text =
      some (object.type, object.id) :=
  Bytes.splitFirst_eq_some_iff.mpr
    ⟨rfl, hProper.type.not_mem (by decide)⟩

theorem Proper.parse?_text
    {object : ObjectRef}
    (hProper : object.Proper) :
    parse? object.text = some object := by
  rw [parse?, hProper.splitFirst_text]
  exact if_pos ⟨hProper.type, hProper.id, hProper.noHash⟩

/- Only proper objects are read. -/
theorem proper_of_parse?
    {text : Bytes}
    {object : ObjectRef}
    (hParse : parse? text = some object) :
    object.Proper := by
  unfold parse? at hParse
  split at hParse
  · cases hParse
  · split at hParse
    · next hParts =>
        rcases hParts with ⟨hType, hId, hHash⟩
        cases hParse
        exact ⟨hType, hId, hHash⟩
    · cases hParse

/- Objects are read exactly as they are written. -/
theorem parse?_eq_some_iff
    {text : Bytes}
    {object : ObjectRef} :
    parse? text = some object ↔
      object.Proper ∧ object.text = text := by
  constructor
  · intro hParse
    exact ⟨proper_of_parse? hParse, text_of_parse? hParse⟩
  · rintro ⟨hProper, rfl⟩
    exact hProper.parse?_text

/- The text of a proper object has no `#`. -/
theorem Proper.hash_not_mem
    {object : ObjectRef}
    (hProper : object.Proper) :
    35 ∉ object.text :=
  hash_not_mem_of_parse? hProper.parse?_text

end ObjectRef

------------------------------------------------------------
-- Users
------------------------------------------------------------

namespace UserRef

/-
  A user that can be told from its written form. Everyone
  who has a relation has it on a single object.
-/
structure Proper (user : UserRef) : Prop where
  object : user.object.Proper
  relation :
    ∀ relation ∈ user.relation,
      Bytes.IsName relation ∧ user.object.id ≠ wildcardId

theorem Proper.parse?_text
    {user : UserRef}
    (hProper : user.Proper) :
    parse? user.text = some user := by
  rcases user with ⟨object, relation⟩
  have hHash := hProper.object.hash_not_mem
  cases relation with
  | none =>
      rw [text, parse?, Bytes.splitFirst_eq_none_iff.mpr hHash,
        hProper.object.parse?_text]
      rfl
  | some relation =>
      have hSplit :
          Bytes.splitFirst 35 (object.text ++ 35 :: relation) =
            some (object.text, relation) :=
        Bytes.splitFirst_eq_some_iff.mpr ⟨rfl, hHash⟩
      rw [text, parse?, hSplit]
      simp only [hProper.object.parse?_text]
      exact if_pos (hProper.relation relation rfl)

/- Only proper users are read. -/
theorem proper_of_parse?
    {text : Bytes}
    {user : UserRef}
    (hParse : parse? text = some user) :
    user.Proper := by
  unfold parse? at hParse
  split at hParse
  · rcases Option.map_eq_some_iff.mp hParse with
      ⟨object, hObject, rfl⟩
    exact ⟨ObjectRef.proper_of_parse? hObject, nofun⟩
  · split at hParse
    · cases hParse
    · next object hObject =>
        split at hParse
        · next hParts =>
            cases hParse
            refine ⟨ObjectRef.proper_of_parse? hObject, ?_⟩
            rintro _ ⟨⟩
            exact hParts
        · cases hParse

/- Users are read exactly as they are written. -/
theorem parse?_eq_some_iff
    {text : Bytes}
    {user : UserRef} :
    parse? text = some user ↔ user.Proper ∧ user.text = text := by
  constructor
  · intro hParse
    exact ⟨proper_of_parse? hParse, text_of_parse? hParse⟩
  · rintro ⟨hProper, rfl⟩
    exact hProper.parse?_text

------------------------------------------------------------
-- Columns
------------------------------------------------------------

/- What a row keeps of a user: three texts. -/
structure Columns where
  type : Bytes
  id : Bytes
  relation : Bytes
  deriving DecidableEq, Repr

/- The columns of a user; no relation is an empty one. -/
def columns (user : UserRef) : Columns :=
  { type := user.object.type
    id := user.object.id
    relation := user.relation.getD [] }

/- The user that a row keeps. -/
def Columns.user (columns : Columns) : UserRef :=
  { object := { type := columns.type, id := columns.id }
    relation :=
      if columns.relation = [] then none
      else some columns.relation }

/- A proper user is found again in its columns. -/
theorem user_columns
    {user : UserRef}
    (hProper : user.Proper) :
    user.columns.user = user := by
  rcases user with ⟨object, relation⟩
  cases relation with
  | none => rfl
  | some relation =>
      -- An empty relation would be taken for none, but it is
      -- no name.
      have hSome : relation ≠ [] :=
        (hProper.relation relation rfl).1.1
      simp [columns, Columns.user, hSome]

theorem columns_inj
    {first second : UserRef}
    (hFirst : first.Proper)
    (hSecond : second.Proper) :
    first.columns = second.columns ↔ first = second := by
  constructor
  · intro hSame
    rw [← user_columns hFirst, hSame, user_columns hSecond]
  · exact congrArg columns

/-
  Objects and users are read from exactly the texts that they
  are written as. What a text is read as is found again in
  the columns of a row, and no other text has these columns.
-/
theorem read_exactly_as_written :
    (∀ text object,
      ObjectRef.parse? text = some object ↔
        object.Proper ∧ object.text = text) ∧
      (∀ text user,
        parse? text = some user ↔
          user.Proper ∧ user.text = text) ∧
        ∀ first second user other,
          parse? first = some user →
            parse? second = some other →
              user.columns.user = user ∧
                (user.columns = other.columns ↔
                  first = second) := by
  refine ⟨fun _ _ => ObjectRef.parse?_eq_some_iff,
    fun _ _ => parse?_eq_some_iff, ?_⟩
  intro first second user other hUser hOther
  have hProper := proper_of_parse? hUser
  refine ⟨user_columns hProper, ?_⟩
  rw [columns_inj hProper (proper_of_parse? hOther),
    ← text_of_parse? hUser, ← text_of_parse? hOther]
  exact (text_inj hProper.parse?_text
    (proper_of_parse? hOther).parse?_text).symm

/-
  A colon and a bar in the id of a group change nothing: the
  members of `team:a:b|c` are kept under columns of their
  own.
-/
theorem barred_group_read :
    parse? (utf8 "team:a:b|c#member") =
        some
          { object :=
              { type := utf8 "team", id := utf8 "a:b|c" }
            relation := some (utf8 "member") } ∧
      ∀ text user,
        parse? text = some user →
          user.columns =
              { type := utf8 "team"
                id := utf8 "a:b|c"
                relation := utf8 "member" } →
            utf8 "team:a:b|c#member" = text := by
  have hRead :
      parse? (utf8 "team:a:b|c#member") =
        some
          { object :=
              { type := utf8 "team", id := utf8 "a:b|c" }
            relation := some (utf8 "member") } := by
    decide +kernel
  refine ⟨hRead, ?_⟩
  intro text user hUser hColumns
  exact (read_exactly_as_written.2.2 _ text _ user
    hRead hUser).2.mp hColumns.symm

end UserRef

end Rebac
