import Rebac.Proofs.Check.Visible
import Rebac.Proofs.Model.Compile

/-
  This file proves which tuples decisions may depend on.

  Any tuple can be written, whether the model allows for it or
  not. A direct rule leaves out the tuples that it does not
  admit. A tupleset does not: it follows every tuple to where
  its computed relation is defined. The other tuples do not
  matter to any decision.

  Key definitions include:
    * `Schema.Admits`
    * `Schema.Follows`
    * `Schema.Uses`
    * `Tables.keeping`
    * `Request.keeping`

  Key theorems include:
    * `Facts.SameUse.answers`
    * `Engine.decision_eq_of_keeping`
-/

------------------------------------------------------------
-- Uses of Tuples
------------------------------------------------------------

namespace Rebac

namespace Rule

/- The direct lists that occur in a rule. -/
def lists (rule : Rule) : List (List TypeSpec) :=
  rule.parts.filterMap fun
    | .direct allowed => some allowed
    | _ => none

/- The tuplesets that occur in a rule, and where they lead. -/
def passages (rule : Rule) : List (Bytes × Bytes) :=
  rule.parts.filterMap fun
    | .tupleToUserset tupleset relation =>
        some (tupleset, relation)
    | _ => none

variable {rule : Rule}

theorem mem_lists
    {allowed : List TypeSpec}
    (hPart : .direct allowed ∈ rule.parts) :
    allowed ∈ rule.lists :=
  List.mem_filterMap.mpr ⟨_, hPart, rfl⟩

theorem mem_passages
    {tupleset relation : Bytes}
    (hPart : .tupleToUserset tupleset relation ∈ rule.parts) :
    (tupleset, relation) ∈ rule.passages :=
  List.mem_filterMap.mpr ⟨_, hPart, rfl⟩

end Rule

namespace Schema

/-
  Whether a tuple is admitted by a direct list that occurs in
  the definition of its relation on its object's type.
-/
def Admits (schema : Schema) (parts : TupleKey.Parts) : Prop :=
  ∃ definition ∈
      schema.find? parts.object.type parts.relation,
    ∃ allowed ∈ definition.rule.lists,
      Scene.Admits allowed parts.user.spec

/-
  Whether a tuple is followed by a relation of its object's
  type, to an object whose type has the computed relation.
-/
def Follows (schema : Schema) (parts : TupleKey.Parts) : Prop :=
  parts.user.object.id ≠ wildcardId ∧
    ∃ type ∈ schema.findType? parts.object.type,
      ∃ definition ∈ type.relations,
        ∃ passage ∈ definition.rule.passages,
          passage.1 = parts.relation ∧
            (schema.find? parts.user.object.type
              passage.2).isSome

/- Whether decisions may depend on a tuple. -/
def Uses (schema : Schema) (parts : TupleKey.Parts) : Prop :=
  schema.Admits parts ∨ schema.Follows parts

variable (schema : Schema)

instance : DecidablePred schema.Admits := by
  intro parts
  unfold Admits
  infer_instance

instance : DecidablePred schema.Follows := by
  intro parts
  unfold Follows
  infer_instance

instance : DecidablePred schema.Uses := by
  intro parts
  unfold Uses
  infer_instance

end Schema

------------------------------------------------------------
-- Answers
------------------------------------------------------------

namespace Facts

/- Facts that only differ in tuples that are not used. -/
structure SameUse (facts others : Facts) : Prop where
  schema : others.schema = facts.schema
  user : others.user = facts.user
  tuples : ∀ parts, facts.schema.Uses parts →
    (parts ∈ facts.tuples ↔ parts ∈ others.tuples)

variable {facts others : Facts}
variable {node : Node}
variable {definition : RelationDefinition}
variable {allowed : List TypeSpec}
variable {tupleset computed : Bytes}

/- The admitted users on a node are the same ones. -/
theorem SameUse.mem_users_iff
    {assigned : UserRef}
    (hSame : facts.SameUse others)
    (hFind :
      facts.schema.find? node.object.type node.relation =
        some definition)
    (hPart : .direct allowed ∈ definition.rule.parts)
    (hAdmits : Scene.Admits allowed assigned.spec) :
    assigned ∈ facts.users node.relation node.object ↔
      assigned ∈ others.users node.relation node.object :=
  hSame.tuples ⟨assigned, node.relation, node.object⟩
    (.inl ⟨definition, hFind, allowed, Rule.mem_lists hPart,
      hAdmits⟩)

theorem SameUse.grants_iff
    (hSame : facts.SameUse others)
    (hFind :
      facts.schema.find? node.object.type node.relation =
        some definition)
    (hPart : .direct allowed ∈ definition.rule.parts) :
    facts.Grants allowed node ↔ others.Grants allowed node := by
  unfold Grants
  rw [hSame.user]
  refine exists_congr fun assigned => ?_
  constructor
  · rintro ⟨hUser, hAdmits, hCovers⟩
    exact ⟨(hSame.mem_users_iff hFind hPart hAdmits).mp hUser,
      hAdmits, hCovers⟩
  · rintro ⟨hUser, hAdmits, hCovers⟩
    exact ⟨(hSame.mem_users_iff hFind hPart hAdmits).mpr hUser,
      hAdmits, hCovers⟩

theorem SameUse.mem_groups_iff
    {group : Node}
    (hSame : facts.SameUse others)
    (hFind :
      facts.schema.find? node.object.type node.relation =
        some definition)
    (hPart : .direct allowed ∈ definition.rule.parts) :
    group ∈ facts.groups allowed node ↔
      group ∈ others.groups allowed node := by
  refine exists_congr fun assigned => ?_
  constructor
  · rintro ⟨hUser, hAdmits, hGroup⟩
    exact ⟨(hSame.mem_users_iff hFind hPart hAdmits).mp hUser,
      hAdmits, hGroup⟩
  · rintro ⟨hUser, hAdmits, hGroup⟩
    exact ⟨(hSame.mem_users_iff hFind hPart hAdmits).mpr hUser,
      hAdmits, hGroup⟩

/- A tupleset leads to the same nodes that are defined. -/
theorem SameUse.mem_targets_iff
    {target : Node}
    (hSame : facts.SameUse others)
    (hFind :
      facts.schema.find? node.object.type node.relation =
        some definition)
    (hPart :
      .tupleToUserset tupleset computed ∈
        definition.rule.parts)
    (hDefined :
      (facts.schema.find? target.object.type
        target.relation).isSome) :
    target ∈ facts.targets tupleset computed node.object ↔
      target ∈ others.targets tupleset computed node.object := by
  rcases Option.bind_eq_some_iff.mp hFind with
    ⟨type, hType, hRelation⟩
  have hUsers : ∀ assigned : UserRef,
      assigned.object.id ≠ wildcardId →
        target = ⟨computed, assigned.object⟩ →
          (assigned ∈ facts.users tupleset node.object ↔
            assigned ∈ others.users tupleset node.object) := by
    rintro assigned hId rfl
    exact hSame.tuples ⟨assigned, tupleset, node.object⟩
      (.inr ⟨hId, type, hType, definition,
        List.mem_of_find?_eq_some hRelation,
        (tupleset, computed), Rule.mem_passages hPart, rfl,
        hDefined⟩)
  refine exists_congr fun assigned => ?_
  constructor
  · rintro ⟨hUser, hId, hTarget⟩
    exact ⟨(hUsers assigned hId hTarget).mp hUser, hId, hTarget⟩
  · rintro ⟨hUser, hId, hTarget⟩
    exact ⟨(hUsers assigned hId hTarget).mpr hUser, hId, hTarget⟩

/- A rule that is asked about occurs in its node's definition. -/
def Placed (facts : Facts) : Inquiry → Prop
  | .relation _ _ => True
  | .rule _ node rule =>
      ∃ definition,
        facts.schema.find? node.object.type node.relation =
            some definition ∧
          rule ∈ definition.rule.parts

theorem Placed.child
    {path : List Node}
    {rule child : Rule}
    (hPlaced : facts.Placed (.rule path node rule))
    (hChild : child ∈ rule.children) :
    facts.Placed (.rule path node child) := by
  rcases hPlaced with ⟨definition, hFind, hPart⟩
  exact ⟨definition, hFind,
    Rule.mem_parts_of_mem_children hPart hChild⟩

/- Only what is defined holds. -/
theorem isSome_of_answers
    {path : List Node}
    (hAnswers : facts.Answers (.relation path node) true) :
    (facts.schema.find? node.object.type
      node.relation).isSome := by
  cases hAnswers with
  | defined hFind _ _ =>
      rw [hFind]
      rfl

/-
  Tuples that are not used change no answer. The induction is
  on the derivation; a rule in it occurs in the definition of
  its node's relation.
-/
theorem SameUse.answers
    {inquiry : Inquiry}
    {answer : Bool}
    (hSame : facts.SameUse others)
    (hAnswers : facts.Answers inquiry answer)
    (hPlaced : facts.Placed inquiry) :
    others.Answers inquiry answer := by
  have hSchema : ∀ {type relation : Bytes},
      others.schema.find? type relation =
        facts.schema.find? type relation := by
    intro type relation
    rw [hSame.schema]
  induction hAnswers with
  | undefined hFind => exact .undefined (hSchema.trans hFind)
  | repeated hPath => exact .repeated hPath
  | defined hFind hPath _ ih =>
      exact .defined (hSchema.trans hFind) hPath
        (ih ⟨_, hFind, Rule.self_mem_parts _⟩)
  | granted hGrants =>
      rcases hPlaced with ⟨definition, hFind, hPart⟩
      exact .granted ((hSame.grants_iff hFind hPart).mp hGrants)
  | member hGroup _ ih =>
      rcases hPlaced with ⟨definition, hFind, hPart⟩
      exact .member
        ((hSame.mem_groups_iff hFind hPart).mp hGroup)
        (ih trivial)
  | ungranted hGrants _ ih =>
      rcases hPlaced with ⟨definition, hFind, hPart⟩
      refine .ungranted ?_ ?_
      · rw [← hSame.grants_iff hFind hPart]
        exact hGrants
      · intro group hGroup
        exact ih group
          ((hSame.mem_groups_iff hFind hPart).mpr hGroup) trivial
  | computed _ ih => exact .computed (ih trivial)
  | related hTarget hRelated ih =>
      rcases hPlaced with ⟨definition, hFind, hPart⟩
      exact .related
        ((hSame.mem_targets_iff hFind hPart
          (isSome_of_answers hRelated)).mp hTarget)
        (ih trivial)
  | unrelated _ ih =>
      rcases hPlaced with ⟨definition, hFind, hPart⟩
      refine .unrelated fun target hTarget => ?_
      cases hDefined :
          facts.schema.find? target.object.type
            target.relation with
      | none => exact .undefined (hSchema.trans hDefined)
      | some found =>
          have hIsSome :
              (facts.schema.find? target.object.type
                target.relation).isSome := by
            rw [hDefined]
            rfl
          exact ih target
            ((hSame.mem_targets_iff hFind hPart hIsSome).mpr
              hTarget) trivial
  | unionTrue hChild _ ih =>
      exact .unionTrue hChild (ih (hPlaced.child hChild))
  | unionFalse _ ih =>
      exact .unionFalse fun child hChild =>
        ih child hChild (hPlaced.child hChild)
  | intersectionTrue _ ih =>
      exact .intersectionTrue fun child hChild =>
        ih child hChild (hPlaced.child hChild)
  | intersectionFalse hChild _ ih =>
      exact .intersectionFalse hChild (ih (hPlaced.child hChild))
  | exclusionTrue _ _ ihBase ihSubtract =>
      exact .exclusionTrue
        (ihBase (hPlaced.child List.mem_cons_self))
        (ihSubtract (hPlaced.child
          (List.mem_cons_of_mem _ List.mem_cons_self)))
  | baseFalse _ ih =>
      exact .baseFalse (ih (hPlaced.child List.mem_cons_self))
  | subtractTrue _ ih =>
      exact .subtractTrue (ih (hPlaced.child
        (List.mem_cons_of_mem _ List.mem_cons_self)))

end Facts

------------------------------------------------------------
-- Decisions
------------------------------------------------------------

variable (Keeps : TupleKey.Parts → Prop) [DecidablePred Keeps]

/- The tables without the tuples that are not to be kept. -/
def Tables.keeping (tables : Tables) : Tables :=
  { tables with
    tuples := tables.tuples.filter fun tuple =>
      Keeps tuple.parts }

/- A request without the tuples that are not to be kept. -/
def Request.keeping (request : Request) : Request :=
  { request with
    contextual := request.contextual.filter fun key =>
      ∀ parts ∈ key.check.toOption, Keeps parts }

namespace Engine

/- What is seen is what is kept of what was seen before. -/
theorem mem_visibleTuples_keeping_iff
    {tables : Tables}
    {request : Request}
    {parts : TupleKey.Parts} :
    parts ∈ visibleTuples (tables.keeping Keeps)
        (request.keeping Keeps) ↔
      parts ∈ visibleTuples tables request ∧ Keeps parts := by
  have hSnapshot :
      snapshot (tables.keeping Keeps) (request.keeping Keeps) =
        snapshot tables request := rfl
  have hContextual :
      (∃ key ∈ (request.keeping Keeps).contextual,
          key.check = .ok parts) ↔
        (∃ key ∈ request.contextual, key.check = .ok parts) ∧
          Keeps parts := by
    constructor
    · rintro ⟨key, hKey, hCheck⟩
      rcases List.mem_filter.mp hKey with ⟨hMem, hKept⟩
      refine ⟨⟨key, hMem, hCheck⟩,
        of_decide_eq_true hKept parts ?_⟩
      rw [hCheck]
      rfl
    · rintro ⟨⟨key, hMem, hCheck⟩, hKept⟩
      refine ⟨key, List.mem_filter.mpr ⟨hMem, ?_⟩, hCheck⟩
      rw [hCheck]
      exact decide_eq_true fun _ hSame =>
        Option.some.inj hSame ▸ hKept
  have hStored :
      (∃ txid, snapshot tables request = .ok txid ∧
          ∃ tuple ∈ (tables.keeping Keeps).tuples,
            tuple.VisibleAt txid ∧ tuple.parts = parts) ↔
        (∃ txid, snapshot tables request = .ok txid ∧
          ∃ tuple ∈ tables.tuples,
            tuple.VisibleAt txid ∧ tuple.parts = parts) ∧
          Keeps parts := by
    constructor
    · rintro ⟨txid, hTxid, tuple, hTuple, hVisible, rfl⟩
      rcases List.mem_filter.mp hTuple with ⟨hMem, hKept⟩
      exact ⟨⟨txid, hTxid, tuple, hMem, hVisible, rfl⟩,
        of_decide_eq_true hKept⟩
    · rintro ⟨⟨txid, hTxid, tuple, hMem, hVisible, rfl⟩, hKept⟩
      exact ⟨txid, hTxid, tuple,
        List.mem_filter.mpr ⟨hMem, decide_eq_true hKept⟩,
        hVisible, rfl⟩
  simp only [visibleTuples, Set.mem_ofPred_eq, hSnapshot,
    hStored, hContextual, or_and_right]

/-
  Leaving out tuples that are not used, of the store and of
  the request, changes no decision, unless it is aborted.
-/
theorem decision_eq_of_keeping
    {engine : Engine}
    {model : Model}
    {tables : Tables}
    {request : Request}
    {bounds limits : Bounds}
    (hModel : engine.model = some model)
    (hKeeps : ∀ parts, model.schema.Uses parts → Keeps parts)
    (hFirst : ∀ abort,
      (engine.checkWithin tables bounds request).decision ≠
        .aborted abort)
    (hSecond : ∀ abort,
      (engine.checkWithin (tables.keeping Keeps) limits
        (request.keeping Keeps)).decision ≠ .aborted abort) :
    (engine.checkWithin (tables.keeping Keeps) limits
        (request.keeping Keeps)).decision =
      (engine.checkWithin tables bounds request).decision := by
  rcases understood_of_decided hFirst with ⟨question, hAsked⟩
  rcases Decision.exists_ofAnswer hFirst with
    ⟨answer, hAnswer⟩
  rcases Decision.exists_ofAnswer hSecond with
    ⟨other, hOther⟩
  have hBefore :=
    answers_of_decision hModel hAsked.user hAsked.object hAnswer
  have hAfter :
      (facts model (tables.keeping Keeps)
        (request.keeping Keeps) question.user).Answers
          (.relation []
            ⟨request.key.relation, question.node.object⟩)
          other :=
    answers_of_decision hModel hAsked.user hAsked.object hOther
  have hSame :
      (facts model tables request question.user).SameUse
        (facts model (tables.keeping Keeps)
          (request.keeping Keeps) question.user) := by
    refine ⟨rfl, rfl, fun parts hUses => ?_⟩
    exact (and_iff_left (hKeeps parts hUses)).symm.trans
      (mem_visibleTuples_keeping_iff Keeps).symm
  rw [hAnswer, hOther,
    (hSame.answers hBefore trivial).unique hAfter]

end Engine

------------------------------------------------------------
-- An Example
------------------------------------------------------------

/-
  Documents in folders, whose viewers may view them. A team
  was written as a parent of a document all the same.
-/
namespace Folders

open Documents (readme alice wide)

def source : Bytes :=
  utf8 "model
  schema 1.1
type doc
  relations
    define parent: [folder]
    define viewer: viewer from parent
type folder
  relations
    define viewer: [user]
type team
  relations
    define viewer: [user]
type user
"

/- Some users are viewers by themselves. -/
def viewers : RelationDefinition :=
  { name := utf8 "viewer"
    rule := .direct [.plain (utf8 "user")] }

def schema : Schema :=
  { version := utf8 "1.1"
    types :=
      [{ name := utf8 "doc"
         relations :=
           [{ name := utf8 "parent"
              rule := .direct [.plain (utf8 "folder")] },
            { name := utf8 "viewer"
              rule := .tupleToUserset (utf8 "parent")
                (utf8 "viewer") }] },
       { name := utf8 "folder", relations := [viewers] },
       { name := utf8 "team", relations := [viewers] },
       { name := utf8 "user", relations := [] }] }

def engine : Engine :=
  { model := some { Documents.model with schema := schema } }

def team : ObjectRef :=
  ⟨utf8 "team", utf8 "dev"⟩

/- The team is a parent of the document. -/
def misplaced : TupleKey.Parts :=
  ⟨{ object := team }, utf8 "parent", readme⟩

/- Alice is a viewer of an object. -/
def views (object : ObjectRef) : TupleKey.Parts :=
  ⟨alice, utf8 "viewer", object⟩

def tables : Tables :=
  { tuples :=
      [{ id := [49]
         parts := misplaced
         created := 1
         deleted := none
         time := 0 },
       { id := [50]
         parts := views team
         created := 1
         deleted := none
         time := 0 }]
    last := 1 }

/- Whether Alice may view the document, as she says herself. -/
def question : Request :=
  { key := ⟨alice.text, utf8 "viewer", readme.text⟩
    contextual := [(views readme).key] }

theorem source_compiled :
    (compile source).schema? = some schema := by
  refine schema?_of_outline ?_ ⟨?_, ?_⟩ <;> decide +kernel

/- What Alice says is not used, and left out without effect. -/
theorem question_keeping :
    (question.keeping schema.Uses).contextual = [] ∧
      (engine.checkWithin (tables.keeping schema.Uses) wide
          (question.keeping schema.Uses)).decision =
        (engine.checkWithin tables wide question).decision := by
  have hAllowed :
      (engine.checkWithin tables wide question).decision =
        .allowed := by
    decide +kernel
  have hKept :
      (engine.checkWithin (tables.keeping schema.Uses) wide
        (question.keeping schema.Uses)).decision =
          .allowed := by
    decide +kernel
  refine ⟨by decide +kernel, ?_⟩
  refine Engine.decision_eq_of_keeping schema.Uses rfl
    (fun _ hUses => hUses) ?_ ?_
  · rw [hAllowed]
    exact fun _ => Decision.noConfusion
  · rw [hKept]
    exact fun _ => Decision.noConfusion

/- The parent is not admitted, and yet it decides. -/
theorem misplaced_decides :
    (compile source).schema? = some schema ∧
      ¬ schema.Admits misplaced ∧
      schema.Admits (views team) ∧
      (engine.checkWithin tables wide question).decision =
        .allowed ∧
      (engine.checkWithin (tables.keeping schema.Admits) wide
          (question.keeping schema.Admits)).decision =
        .denied := by
  refine ⟨source_compiled, ?_, ?_, ?_, ?_⟩ <;> decide +kernel

end Folders

end Rebac
