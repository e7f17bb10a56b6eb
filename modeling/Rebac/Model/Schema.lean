import Rebac.Model.TypeSpec

/-
  This file defines schemas: what a model says about its
  types and their relations.

  Key definitions include:
    * `Rule`
    * `Rule.kind`
    * `RelationDefinition`
    * `RelationDefinition.assignable?`
    * `TypeDefinition`
    * `Schema`
    * `Schema.findType?`
    * `Schema.find?`
    * `Schema.HasType`
-/

namespace Rebac

------------------------------------------------------------
-- Rules
------------------------------------------------------------

/-
  How a relation on an object is decided: by the tuples on
  the object itself, by another relation on it, by a
  relation on the objects that a tupleset leads to, or by
  combining other rules.
-/
inductive Rule where
  | direct (allowed : List TypeSpec)
  | computed (relation : Bytes)
  | tupleToUserset (tupleset computed : Bytes)
  | union (children : List Rule)
  | intersection (children : List Rule)
  | exclusion (base subtract : Rule)
  deriving Repr

namespace Rule

/- The name of a rule, not of the rules that it combines. -/
def kind : Rule → Bytes
  | .direct _ => utf8 "direct"
  | .computed _ => utf8 "computed"
  | .tupleToUserset _ _ => utf8 "tupleToUserset"
  | .union _ => utf8 "union"
  | .intersection _ => utf8 "intersection"
  | .exclusion _ _ => utf8 "exclusion"

end Rule

------------------------------------------------------------
-- Definitions
------------------------------------------------------------

/- A relation and the rule that decides it. -/
structure RelationDefinition where
  name : Bytes
  rule : Rule
  deriving Repr

namespace RelationDefinition

/-
  The users that may be assigned to a relation directly. A
  relation has such a list only if its whole rule is a
  direct one.
-/
def assignable?
    (relation : RelationDefinition) :
    Option (List TypeSpec) :=
  match relation.rule with
  | .direct allowed => some allowed
  | _ => none

end RelationDefinition

/- A type and its relations, in bytewise order of names. -/
structure TypeDefinition where
  name : Bytes
  relations : List RelationDefinition
  deriving Repr

namespace TypeDefinition

/- The relation of the given name. -/
def find?
    (type : TypeDefinition)
    (relation : Bytes) : Option RelationDefinition :=
  type.relations.find? fun candidate =>
    candidate.name = relation

end TypeDefinition

------------------------------------------------------------
-- Schemas
------------------------------------------------------------

/- The types of a model, in bytewise order of names. -/
structure Schema where
  version : Bytes
  types : List TypeDefinition
  deriving Repr

namespace Schema

/- The type of the given name. -/
def findType?
    (schema : Schema)
    (type : Bytes) : Option TypeDefinition :=
  schema.types.find? fun candidate => candidate.name = type

/- Whether a schema defines a type. -/
def HasType
    (schema : Schema)
    (type : Bytes) : Prop :=
  (schema.findType? type).isSome

instance
    (schema : Schema)
    (type : Bytes) : Decidable (schema.HasType type) := by
  unfold HasType
  infer_instance

/- The relation of the given name on the given type. -/
def find?
    (schema : Schema)
    (type relation : Bytes) : Option RelationDefinition :=
  (schema.findType? type).bind fun found =>
    found.find? relation

end Schema

end Rebac
