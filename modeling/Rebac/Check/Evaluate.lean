import Rebac.Check.Bounds
import Rebac.Model.Schema
import Rebac.Tuple.Reference

/-
  This file defines how a relation on an object is evaluated
  for a user.

  The rule of the relation is followed from object to
  object. A relation on an object that is met again on the
  way to itself does not hold there. An interruption of one
  part does not matter when another part decides the whole;
  otherwise the first interruption is the outcome.

  Key definitions include:
    * `Node`
    * `Evaluation`
    * `Evaluation.settle`
    * `Evaluation.anyOf`
    * `Evaluation.allOf`
    * `Evaluation.butNot`
    * `Evaluation.anyTuple`
    * `Scene`
    * `Scene.Admits`
    * `Scene.direct`
    * `Scene.tupleToUserset`
    * `Scene.evaluateRule`
    * `Scene.evaluate`
-/

namespace Rebac

/- A relation on an object. -/
structure Node where
  relation : Bytes
  object : ObjectRef
  deriving DecidableEq, Repr

/-
  An evaluation uses up a meter and has an answer, unless it
  is interrupted.
-/
abbrev Evaluation :=
  Meter → Except Interruption Bool × Meter

namespace Evaluation

------------------------------------------------------------
-- Combinations
------------------------------------------------------------

/- An evaluation that has its answer already. -/
def always (answer : Bool) : Evaluation :=
  fun meter => (.ok answer, meter)

/- An evaluation that is interrupted at once. -/
def interrupted (interruption : Interruption) : Evaluation :=
  fun meter => (.error interruption, meter)

/- The answer, unless there was an interruption before. -/
def settle
    (earlier : Option Interruption)
    (answer : Bool) : Except Interruption Bool :=
  match earlier with
  | none => .ok answer
  | some interruption => .error interruption

/- The first of two interruptions. -/
def first
    (earlier : Option Interruption)
    (interruption : Interruption) : Option Interruption :=
  some (earlier.getD interruption)

/- Holds if any part holds; the others are then left out. -/
def anyOf
    (earlier : Option Interruption) :
    List Evaluation → Evaluation
  | [], meter => (settle earlier false, meter)
  | part :: others, meter =>
      match part meter with
      | (.ok true, meter) => (.ok true, meter)
      | (.ok false, meter) => anyOf earlier others meter
      | (.error interruption, meter) =>
          anyOf (first earlier interruption) others meter

/- Holds if all parts hold; after one that fails, none is tried. -/
def allOf
    (earlier : Option Interruption) :
    List Evaluation → Evaluation
  | [], meter => (settle earlier true, meter)
  | part :: others, meter =>
      match part meter with
      | (.ok false, meter) => (.ok false, meter)
      | (.ok true, meter) => allOf earlier others meter
      | (.error interruption, meter) =>
          allOf (first earlier interruption) others meter

/- Holds if one part holds and another one does not. -/
def butNot (base subtract : Evaluation) : Evaluation :=
  fun meter =>
    match base meter with
    | (.ok false, meter) => (.ok false, meter)
    | (outcome, meter) =>
        match outcome, subtract meter with
        | _, (.ok true, meter) => (.ok false, meter)
        | .error interruption, (_, meter) =>
            (.error interruption, meter)
        | _, (.error interruption, meter) =>
            (.error interruption, meter)
        | .ok _, (.ok false, meter) => (.ok true, meter)

/-
  Holds if the users of any tuple fulfil the condition. Each
  tuple is counted first, and nothing goes on after too many
  of them.
-/
def anyTuple
    (bounds : Bounds)
    (condition : UserRef → Evaluation)
    (earlier : Option Interruption) :
    List UserRef → Evaluation
  | [], meter => (settle earlier false, meter)
  | user :: others, meter =>
      match meter.charge bounds with
      | (.error interruption, meter) =>
          (.error interruption, meter)
      | (.ok _, meter) =>
          match condition user meter with
          | (.ok true, meter) => (.ok true, meter)
          | (.ok false, meter) =>
              anyTuple bounds condition earlier others meter
          | (.error interruption, meter) =>
              anyTuple bounds condition
                (first earlier interruption) others meter

end Evaluation

------------------------------------------------------------
-- Scenes
------------------------------------------------------------

/-
  What an evaluation works with: a schema, the users of the
  visible tuples with a relation on an object, the user in
  question and the limits. Tuples that cannot be read are
  `none`.
-/
structure Scene where
  schema : Schema
  users : (relation : Bytes) →
    (object : ObjectRef) → Option (List UserRef)
  user : UserRef
  bounds : Bounds

namespace Scene

/- Whether a direct list admits a kind of user. -/
def Admits
    (allowed : List TypeSpec)
    (spec : TypeSpec) : Prop :=
  spec ∈ allowed ∨ .any ∈ allowed

instance (allowed : List TypeSpec) (spec : TypeSpec) :
    Decidable (Admits allowed spec) := by
  unfold Admits
  infer_instance

/- Evaluates a condition on the tuples with a relation. -/
def overTuples
    (scene : Scene)
    (relation : Bytes)
    (object : ObjectRef)
    (condition : UserRef → Evaluation) : Evaluation :=
  match scene.users relation object with
  | none => Evaluation.interrupted .storage
  | some users =>
      Evaluation.anyTuple scene.bounds condition none users

/-
  Whether the user of a tuple makes a direct relation hold:
  it is the user in question, or stands for all users of
  that user's type, or for a group that the user is in.
-/
def direct
    (scene : Scene)
    (evaluate : Node → Evaluation)
    (allowed : List TypeSpec)
    (assigned : UserRef) : Evaluation :=
  let type := assigned.object.type
  match assigned.relation with
  | some relation =>
      if ¬ Admits allowed (.userset type relation) then
        Evaluation.always false
      else if scene.user = assigned then
        Evaluation.always true
      else
        evaluate { relation := relation, object := assigned.object }
  | none =>
      if assigned.object.id = wildcardId then
        Evaluation.always
          (scene.user.relation = none ∧
            scene.user.object.type = type ∧
            Admits allowed (.wildcard type))
      else
        Evaluation.always
          (scene.user = assigned ∧ Admits allowed (.plain type))

/-
  Whether the object that a tupleset leads to has the
  relation. The wildcard leads nowhere.
-/
def tupleToUserset
    (evaluate : Node → Evaluation)
    (computed : Bytes)
    (assigned : UserRef) : Evaluation :=
  if assigned.object.id = wildcardId then
    Evaluation.always false
  else
    evaluate { relation := computed, object := assigned.object }

mutual

/-
  Evaluates a rule for a relation on an object. Relations
  on other objects, and other relations on this one, are
  left to the given function.
-/
def evaluateRule
    (scene : Scene)
    (evaluate : Node → Evaluation)
    (node : Node) : Rule → Evaluation
  | .direct allowed =>
      scene.overTuples node.relation node.object
        (scene.direct evaluate allowed)
  | .computed relation =>
      evaluate { relation := relation, object := node.object }
  | .tupleToUserset tupleset computed =>
      scene.overTuples tupleset node.object
        (tupleToUserset evaluate computed)
  | .union children =>
      Evaluation.anyOf none
        (evaluateRules scene evaluate node children)
  | .intersection children =>
      Evaluation.allOf none
        (evaluateRules scene evaluate node children)
  | .exclusion base subtract =>
      Evaluation.butNot
        (evaluateRule scene evaluate node base)
        (evaluateRule scene evaluate node subtract)

/- Evaluates several rules. -/
def evaluateRules
    (scene : Scene)
    (evaluate : Node → Evaluation)
    (node : Node) : List Rule → List Evaluation
  | [] => []
  | child :: others =>
      evaluateRule scene evaluate node child ::
        evaluateRules scene evaluate node others

end

/-
  Evaluates a relation on an object below the nodes of a
  path. The levels are those that are left up to the
  greatest depth; with none left, the depth is too great. A
  relation that the object's type does not have contributes
  nothing.
-/
def evaluate
    (scene : Scene) :
    (levels : Nat) → (path : List Node) → Node → Evaluation
  | 0, _, _, meter =>
      match meter.enter scene.bounds
          (scene.bounds.maxDepth + 1) with
      | (.error interruption, meter) =>
          (.error interruption, meter)
      | (.ok _, meter) => (.error .maxDepth, meter)
  | levels + 1, path, node, meter =>
      match meter.enter scene.bounds
          (scene.bounds.maxDepth - levels) with
      | (.error interruption, meter) =>
          (.error interruption, meter)
      | (.ok _, meter) =>
          match scene.schema.find?
              node.object.type node.relation with
          | none => (.ok false, meter)
          | some definition =>
              if node ∈ path then
                (.ok false, meter)
              else
                scene.evaluateRule
                  (scene.evaluate levels (node :: path))
                  node definition.rule meter

end Scene

end Rebac
