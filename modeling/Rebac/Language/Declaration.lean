import Rebac.Language.Location
import Rebac.Model.TypeSpec

/-
  This file defines the declarations that a model source is
  made of. Every part keeps the place where it begins.

  Key definitions include:
    * `Declaration.TypeRef`
    * `Declaration.Expression`
    * `Declaration.Relation`
    * `Declaration.TypeBlock`
    * `Declaration`
-/

namespace Rebac

------------------------------------------------------------
-- Expressions
------------------------------------------------------------

/- An entry of a direct list, in its place. -/
structure Declaration.TypeRef where
  spec : TypeSpec
  location : Location
  deriving DecidableEq, Repr

/-
  What defines a relation. An operator stands where its
  first operand stands.
-/
inductive Declaration.Expression where
  | direct
      (entries : List Declaration.TypeRef)
      (location : Location)
  | computed
      (relation : Bytes)
      (location : Location)
  | tupleToUserset
      (tupleset computed : Bytes)
      (location : Location)
  | union
      (operands : List Declaration.Expression)
      (location : Location)
  | intersection
      (operands : List Declaration.Expression)
      (location : Location)
  | exclusion
      (base subtract : Declaration.Expression)
      (location : Location)
  deriving Repr

namespace Declaration.Expression

/- Where an expression stands. -/
def location : Declaration.Expression → Location
  | .direct _ location => location
  | .computed _ location => location
  | .tupleToUserset _ _ location => location
  | .union _ location => location
  | .intersection _ location => location
  | .exclusion _ _ location => location

end Declaration.Expression

------------------------------------------------------------
-- Blocks
------------------------------------------------------------

/- A relation and the expression that defines it. -/
structure Declaration.Relation where
  name : Bytes
  expression : Declaration.Expression
  location : Location
  deriving Repr

/- A type and its relations, in the order of the source. -/
structure Declaration.TypeBlock where
  name : Bytes
  relations : List Declaration.Relation
  location : Location
  deriving Repr

/- A whole model, its types in the order of the source. -/
structure Declaration where
  schemaVersion : Bytes
  types : List Declaration.TypeBlock
  location : Location
  deriving Repr

end Rebac
