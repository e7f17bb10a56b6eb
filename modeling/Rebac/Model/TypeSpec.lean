import Rebac.Bytes

/-
  This file defines which users a direct relation admits.

  Key definitions include:
    * `TypeSpec`
    * `TypeSpec.text`
-/

namespace Rebac

/-
  One entry of a direct relation's list: every user, the
  users of a type, the members of a relation on the objects
  of a type, or the wildcard that stands for all users of a
  type.
-/
inductive TypeSpec where
  | any
  | plain (type : Bytes)
  | userset (type relation : Bytes)
  | wildcard (type : Bytes)
  deriving DecidableEq, Repr

namespace TypeSpec

/- The written form of an entry. -/
def text : TypeSpec → Bytes
  | .any => utf8 "*"
  | .plain type => type
  | .userset type relation => type ++ utf8 "#" ++ relation
  | .wildcard type => type ++ utf8 ":*"

/- The type that an entry names; `any` names `*`. -/
def typeName : TypeSpec → Bytes
  | .any => utf8 "*"
  | .plain type => type
  | .userset type _ => type
  | .wildcard type => type

end TypeSpec

end Rebac
