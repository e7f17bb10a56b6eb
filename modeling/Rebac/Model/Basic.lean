import Rebac.Model.Compile
import Rebac.Ulid

/-
  This file defines models: schemas that were compiled and
  given an identity.

  Key definitions include:
    * `Model`
    * `Model.issue`
-/

namespace Rebac

/-
  A compiled model. Its source is kept as it was given, and
  its time of creation is in milliseconds.
-/
structure Model where
  id : Bytes
  version : Bytes
  schema : Schema
  source : Bytes
  active : Bool
  created : Int
  deriving Repr

namespace Model

/-
  Gives a schema its identity. The model is not active yet.
-/
def issue
    (schema : Schema)
    (source : Bytes)
    (now : Int)
    (ids : IdSource) : Model × IdSource :=
  let (id, ids) := ids.draw now
  let (version, ids) := ids.draw now
  ({ id := id
     version := version
     schema := schema
     source := source
     active := false
     created := now }, ids)

end Model

end Rebac
