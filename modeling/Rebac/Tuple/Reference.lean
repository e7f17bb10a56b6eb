import Rebac.Bytes

/-
  This file defines references to objects and users, and
  their written forms.

  An object is written `type:id`. A user is written like an
  object, or as `type:id#relation` for everyone who has the
  relation on the object. The user `type:*` stands for all
  users of a type.

  Key definitions include:
    * `ObjectRef`
    * `ObjectRef.parse?`
    * `ObjectRef.text`
    * `UserRef`
    * `UserRef.IsWildcard`
    * `UserRef.parse?`
    * `UserRef.text`
-/

namespace Rebac

------------------------------------------------------------
-- Objects
------------------------------------------------------------

/- An object, given by its type and its id. -/
structure ObjectRef where
  type : Bytes
  id : Bytes
  deriving DecidableEq, Repr, Inhabited

namespace ObjectRef

/- The written form of an object. -/
def text (object : ObjectRef) : Bytes :=
  object.type ++ 58 :: object.id

/-
  Reads an object. The type is a name and ends at the first
  colon; the id is not empty and has no `#`.
-/
def parse? (text : Bytes) : Option ObjectRef :=
  match Bytes.splitFirst 58 text with
  | none => none
  | some (type, id) =>
      if Bytes.IsName type ∧ id ≠ [] ∧ 35 ∉ id then
        some { type := type, id := id }
      else
        none

end ObjectRef

------------------------------------------------------------
-- Users
------------------------------------------------------------

/- The id that stands for all objects of a type. -/
def wildcardId : Bytes :=
  utf8 "*"

/-
  A user: an object, or everyone who has a relation on an
  object.
-/
structure UserRef where
  object : ObjectRef
  relation : Option Bytes := none
  deriving DecidableEq, Repr, Inhabited

namespace UserRef

/- The user that stands for all users of its type. -/
def IsWildcard (user : UserRef) : Prop :=
  user.object.id = wildcardId ∧ user.relation = none

instance (user : UserRef) : Decidable user.IsWildcard := by
  unfold IsWildcard
  infer_instance

/- The written form of a user. -/
def text (user : UserRef) : Bytes :=
  match user.relation with
  | none => user.object.text
  | some relation => user.object.text ++ 35 :: relation

/-
  Reads a user. The object ends at the first `#`; behind it
  comes the name of a relation, and then the object's id is
  not the wildcard.
-/
def parse? (text : Bytes) : Option UserRef :=
  match Bytes.splitFirst 35 text with
  | none =>
      (ObjectRef.parse? text).map fun object =>
        { object := object }
  | some (before, relation) =>
      match ObjectRef.parse? before with
      | none => none
      | some object =>
          if Bytes.IsName relation ∧ object.id ≠ wildcardId then
            some { object := object, relation := some relation }
          else
            none

end UserRef

end Rebac
