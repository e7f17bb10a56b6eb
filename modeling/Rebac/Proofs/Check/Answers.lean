import Mathlib.Data.Set.Basic
import Rebac.Check.Evaluate
import Rebac.Tuple.Key

/-
  This file specifies the answers of an evaluation apart from
  its limits and from the order in which tuples are read.

  An answer is derived from a schema, a set of tuples and a
  user. The derivation carries the path of the nodes that it
  is below, since a node that is met again on the way to
  itself does not hold there.

  Key definitions include:
    * `UserRef.spec`
    * `UserRef.Covers`
    * `UserRef.group?`
    * `Facts`
    * `Facts.Grants`
    * `Facts.groups`
    * `Facts.targets`
    * `Facts.Inquiry`
    * `Facts.Answers`

  Key theorems include:
    * `Facts.Answers.unique`
-/

------------------------------------------------------------
-- Users of Tuples
------------------------------------------------------------

namespace Rebac

namespace UserRef

/- The entry of a direct list that admits a tuple's user. -/
def spec (assigned : UserRef) : TypeSpec :=
  match assigned.relation with
  | some relation => .userset assigned.object.type relation
  | none =>
      if assigned.object.id = wildcardId then
        .wildcard assigned.object.type
      else
        .plain assigned.object.type

/-
  Whether a tuple's user stands for a user by itself: it is
  that user, or the wildcard of a plain user's type.
-/
def Covers (assigned user : UserRef) : Prop :=
  user = assigned ∨
    assigned.IsWildcard ∧ user.relation = none ∧
      user.object.type = assigned.object.type

instance (assigned user : UserRef) :
    Decidable (assigned.Covers user) := by
  unfold Covers
  infer_instance

/- The node that decides who is in the group of a tuple. -/
def group? (assigned : UserRef) : Option Node :=
  assigned.relation.map fun relation =>
    { relation := relation, object := assigned.object }

end UserRef

------------------------------------------------------------
-- Facts
------------------------------------------------------------

/-
  What answers depend on: a schema, the visible tuples and
  the user in question.
-/
structure Facts where
  schema : Schema
  tuples : Set TupleKey.Parts
  user : UserRef

namespace Facts

/- The users of the tuples with a relation on an object. -/
def users
    (facts : Facts)
    (relation : Bytes)
    (object : ObjectRef) : Set UserRef :=
  { user | (⟨user, relation, object⟩ : TupleKey.Parts) ∈
      facts.tuples }

/- Some admitted tuple on a node stands for the user. -/
def Grants
    (facts : Facts)
    (allowed : List TypeSpec)
    (node : Node) : Prop :=
  ∃ assigned ∈ facts.users node.relation node.object,
    Scene.Admits allowed assigned.spec ∧
      assigned.Covers facts.user

/- The groups that the admitted tuples on a node name. -/
def groups
    (facts : Facts)
    (allowed : List TypeSpec)
    (node : Node) : Set Node :=
  { group |
    ∃ assigned ∈ facts.users node.relation node.object,
      Scene.Admits allowed assigned.spec ∧
        assigned.group? = some group }

/-
  The nodes of a computed relation that a tupleset leads to.
  The wildcard leads nowhere.
-/
def targets
    (facts : Facts)
    (tupleset computed : Bytes)
    (object : ObjectRef) : Set Node :=
  { target |
    ∃ assigned ∈ facts.users tupleset object,
      assigned.object.id ≠ wildcardId ∧
        target = ⟨computed, assigned.object⟩ }

------------------------------------------------------------
-- Derivations
------------------------------------------------------------

/-
  What is asked below a path: a relation on an object, or a
  rule of one.
-/
inductive Inquiry where
  | relation (path : List Node) (node : Node)
  | rule (path : List Node) (node : Node) (rule : Rule)

/-
  `facts.Answers inquiry answer` means that the answer can be
  derived. A whole that one part decides needs no answer of
  the other parts.
-/
inductive Answers (facts : Facts) : Inquiry → Bool → Prop where
  | undefined {path : List Node} {node : Node}
      (hFind : facts.schema.find?
        node.object.type node.relation = none) :
      Answers facts (.relation path node) false
  | repeated {path : List Node} {node : Node}
      (hPath : node ∈ path) :
      Answers facts (.relation path node) false
  | defined {path : List Node} {node : Node} {answer : Bool}
      {definition : RelationDefinition}
      (hFind : facts.schema.find?
        node.object.type node.relation = some definition)
      (hPath : node ∉ path)
      (hRule : Answers facts
        (.rule (node :: path) node definition.rule) answer) :
      Answers facts (.relation path node) answer
  | granted {path : List Node} {node : Node}
      {allowed : List TypeSpec}
      (hGrants : facts.Grants allowed node) :
      Answers facts (.rule path node (.direct allowed)) true
  | member {path : List Node} {node group : Node}
      {allowed : List TypeSpec}
      (hGroup : group ∈ facts.groups allowed node)
      (hMember : Answers facts (.relation path group) true) :
      Answers facts (.rule path node (.direct allowed)) true
  | ungranted {path : List Node} {node : Node}
      {allowed : List TypeSpec}
      (hGrants : ¬ facts.Grants allowed node)
      (hMembers : ∀ group ∈ facts.groups allowed node,
        Answers facts (.relation path group) false) :
      Answers facts (.rule path node (.direct allowed)) false
  | computed {path : List Node} {node : Node}
      {relation : Bytes} {answer : Bool}
      (hComputed : Answers facts
        (.relation path ⟨relation, node.object⟩) answer) :
      Answers facts
        (.rule path node (.computed relation)) answer
  | related {path : List Node} {node target : Node}
      {tupleset computed : Bytes}
      (hTarget : target ∈
        facts.targets tupleset computed node.object)
      (hRelated : Answers facts (.relation path target) true) :
      Answers facts
        (.rule path node (.tupleToUserset tupleset computed))
        true
  | unrelated {path : List Node} {node : Node}
      {tupleset computed : Bytes}
      (hRelated :
        ∀ target ∈ facts.targets tupleset computed node.object,
          Answers facts (.relation path target) false) :
      Answers facts
        (.rule path node (.tupleToUserset tupleset computed))
        false
  | unionTrue {path : List Node} {node : Node}
      {children : List Rule} {child : Rule}
      (hChild : child ∈ children)
      (hAnswer : Answers facts (.rule path node child) true) :
      Answers facts (.rule path node (.union children)) true
  | unionFalse {path : List Node} {node : Node}
      {children : List Rule}
      (hAnswers : ∀ child ∈ children,
        Answers facts (.rule path node child) false) :
      Answers facts (.rule path node (.union children)) false
  | intersectionTrue {path : List Node} {node : Node}
      {children : List Rule}
      (hAnswers : ∀ child ∈ children,
        Answers facts (.rule path node child) true) :
      Answers facts
        (.rule path node (.intersection children)) true
  | intersectionFalse {path : List Node} {node : Node}
      {children : List Rule} {child : Rule}
      (hChild : child ∈ children)
      (hAnswer : Answers facts (.rule path node child) false) :
      Answers facts
        (.rule path node (.intersection children)) false
  | exclusionTrue {path : List Node} {node : Node}
      {base subtract : Rule}
      (hBase : Answers facts (.rule path node base) true)
      (hSubtract :
        Answers facts (.rule path node subtract) false) :
      Answers facts
        (.rule path node (.exclusion base subtract)) true
  | baseFalse {path : List Node} {node : Node}
      {base subtract : Rule}
      (hBase : Answers facts (.rule path node base) false) :
      Answers facts
        (.rule path node (.exclusion base subtract)) false
  | subtractTrue {path : List Node} {node : Node}
      {base subtract : Rule}
      (hSubtract :
        Answers facts (.rule path node subtract) true) :
      Answers facts
        (.rule path node (.exclusion base subtract)) false

------------------------------------------------------------
-- Uniqueness
------------------------------------------------------------

/-
  An inquiry has at most one answer. The induction is on the
  first derivation; wherever the second one ends with another
  rule, some part would have two answers.
-/
theorem Answers.unique
    {facts : Facts}
    {inquiry : Inquiry}
    {first second : Bool}
    (hFirst : facts.Answers inquiry first)
    (hSecond : facts.Answers inquiry second) :
    first = second := by
  induction hFirst generalizing second with
  | undefined hFind =>
      cases hSecond with
      | undefined _ => rfl
      | repeated _ => rfl
      | defined hFound _ _ =>
          rw [hFind] at hFound
          cases hFound
  | repeated hPath =>
      cases hSecond with
      | undefined _ => rfl
      | repeated _ => rfl
      | defined _ hFresh _ => exact absurd hPath hFresh
  | defined hFind hFresh _ ih =>
      cases hSecond with
      | undefined hNone =>
          rw [hFind] at hNone
          cases hNone
      | repeated hPath => exact absurd hPath hFresh
      | defined hFound _ hRule =>
          rw [hFind] at hFound
          cases hFound
          exact ih hRule
  | granted hGrants =>
      cases hSecond with
      | granted _ => rfl
      | member _ _ => rfl
      | ungranted hNone _ => exact absurd hGrants hNone
  | member hGroup _ ih =>
      cases hSecond with
      | granted _ => rfl
      | member _ _ => rfl
      | ungranted _ hMembers => exact ih (hMembers _ hGroup)
  | ungranted hNone _ ih =>
      cases hSecond with
      | granted hGrants => exact absurd hGrants hNone
      | member hGroup hMember => exact ih _ hGroup hMember
      | ungranted _ _ => rfl
  | computed _ ih =>
      cases hSecond with
      | computed hComputed => exact ih hComputed
  | related hTarget _ ih =>
      cases hSecond with
      | related _ _ => rfl
      | unrelated hRelated => exact ih (hRelated _ hTarget)
  | unrelated _ ih =>
      cases hSecond with
      | related hTarget hRelated => exact ih _ hTarget hRelated
      | unrelated _ => rfl
  | unionTrue hChild _ ih =>
      cases hSecond with
      | unionTrue _ _ => rfl
      | unionFalse hAnswers => exact ih (hAnswers _ hChild)
  | unionFalse _ ih =>
      cases hSecond with
      | unionTrue hChild hAnswer => exact ih _ hChild hAnswer
      | unionFalse _ => rfl
  | intersectionTrue _ ih =>
      cases hSecond with
      | intersectionTrue _ => rfl
      | intersectionFalse hChild hAnswer =>
          exact ih _ hChild hAnswer
  | intersectionFalse hChild _ ih =>
      cases hSecond with
      | intersectionTrue hAnswers =>
          exact ih (hAnswers _ hChild)
      | intersectionFalse _ _ => rfl
  | exclusionTrue _ _ ihBase ihSubtract =>
      cases hSecond with
      | exclusionTrue _ _ => rfl
      | baseFalse hBase => exact ihBase hBase
      | subtractTrue hSubtract =>
          exact (ihSubtract hSubtract).symm
  | baseFalse _ ih =>
      cases hSecond with
      | exclusionTrue hBase _ => exact ih hBase
      | baseFalse _ => rfl
      | subtractTrue _ => rfl
  | subtractTrue _ ih =>
      cases hSecond with
      | exclusionTrue _ hSubtract =>
          exact (ih hSubtract).symm
      | baseFalse _ => rfl
      | subtractTrue _ => rfl

end Facts

end Rebac
