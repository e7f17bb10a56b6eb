import Rebac.Tuple.Reference

/-
  This file defines the keys of relation tuples: the texts
  that callers write, delete and look up tuples with.

  Key definitions include:
    * `TupleKey`
    * `TupleKey.Fault`
    * `TupleKey.Fault.message`
    * `TupleKey.Parts`
    * `TupleKey.check`
-/

namespace Rebac

/- A user, a relation and an object, as they are written. -/
structure TupleKey where
  user : Bytes
  relation : Bytes
  object : Bytes
  deriving DecidableEq, Repr, Inhabited

namespace TupleKey

------------------------------------------------------------
-- Faults
------------------------------------------------------------

/- What can be wrong with a key. -/
inductive Fault where
  | user (text : Bytes)
  | relation (text : Bytes)
  | object (text : Bytes)
  | wildcardObject (text : Bytes)
  deriving DecidableEq, Repr

/- The wording of a fault. -/
def Fault.message : Fault → Bytes
  | .user text => utf8 "invalid user '" ++ text ++ utf8 "'"
  | .relation text =>
      utf8 "invalid relation '" ++ text ++ utf8 "'"
  | .object text => utf8 "invalid object '" ++ text ++ utf8 "'"
  | .wildcardObject text =>
      utf8 "object id cannot be a wildcard: '" ++ text ++
        utf8 "'"

------------------------------------------------------------
-- Parts
------------------------------------------------------------

/- What a valid key refers to. -/
structure Parts where
  user : UserRef
  relation : Bytes
  object : ObjectRef
  deriving DecidableEq, Repr, Inhabited

/- The key that is written for a user and an object. -/
def Parts.key (parts : Parts) : TupleKey :=
  { user := parts.user.text
    relation := parts.relation
    object := parts.object.text }

/-
  Reads a key. Its texts are looked at in order, and the
  first fault is the one reported. The object has to be a
  single one.
-/
def check (key : TupleKey) : Except Fault Parts :=
  match UserRef.parse? key.user with
  | none => .error (.user key.user)
  | some user =>
      if ¬ Bytes.IsName key.relation then
        .error (.relation key.relation)
      else
        match ObjectRef.parse? key.object with
        | none => .error (.object key.object)
        | some object =>
            if object.id = wildcardId then
              .error (.wildcardObject key.object)
            else
              .ok
                { user := user
                  relation := key.relation
                  object := object }

end TupleKey

end Rebac
