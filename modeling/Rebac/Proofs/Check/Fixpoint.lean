import Rebac.Proofs.Check.Strata
import Rebac.Proofs.Check.Visible

/-
  This file proves that a decision is whether a node belongs
  to the stratified least fixpoint.

  An evaluation does not follow a node into itself, so below
  a path it looks for derivations that do without the nodes
  of the path. A derivation can do without the node that it
  derives. On the subtract side of an exclusion nothing leads
  back to the path, so nothing is lost there either.

  Key definitions include:
    * `Facts.Stratification.avoiding`
    * `Facts.Stratification.Sound`

  Key theorems include:
    * `Facts.Stratification.avoiding_nil`
    * `Facts.Stratification.mem_avoiding_iff_of_not_leadsTo`
    * `Facts.Stratification.mem_avoiding_iff`
    * `Facts.Stratification.sound`
    * `Engine.allowed_iff_mem_fixpoint`
-/

------------------------------------------------------------
-- Derivations That Avoid a Path
------------------------------------------------------------

namespace Rebac

namespace Facts

namespace Stratification

variable {facts : Facts} (strata : facts.Stratification)

/- One step of the derivations that avoid a path. -/
def avoidingOperator
    (path : List Node) : Set Node →o Set Node where
  toFun nodes :=
    { node ∈ facts.consequences nodes strata.fixpoint |
      node ∉ path }
  monotone' := by
    rintro nodes more hMore node ⟨hFollows, hPath⟩
    refine ⟨consequences_mono hFollows ?_ ?_, hPath⟩
    · exact fun other _ hOther => hMore hOther
    · exact fun _ _ => Iff.rfl

/-
  The nodes that can be derived without the nodes of a path,
  while the whole fixpoint is what is subtracted.
-/
def avoiding (path : List Node) : Set Node :=
  (strata.avoidingOperator path).lfp

theorem mem_avoiding_iff_self
    {path : List Node}
    {node : Node} :
    node ∈ strata.avoiding path ↔
      node ∈ facts.consequences (strata.avoiding path)
          strata.fixpoint ∧
        node ∉ path := by
  have hFixed := (strata.avoidingOperator path).map_lfp
  constructor
  · intro hNode
    rw [avoiding, ← hFixed] at hNode
    exact hNode
  · intro hNode
    rw [avoiding, ← hFixed]
    exact hNode

theorem avoiding_subset
    {path : List Node}
    {nodes : Set Node}
    (hClosed : ∀ node,
      node ∈ facts.consequences nodes strata.fixpoint →
        node ∉ path → node ∈ nodes) :
    strata.avoiding path ⊆ nodes := by
  apply OrderHom.lfp_le
  rintro node ⟨hFollows, hPath⟩
  exact hClosed node hFollows hPath

/- With more nodes to avoid, less can be derived. -/
theorem avoiding_anti
    {path longer : List Node}
    (hLonger : ∀ node, node ∈ path → node ∈ longer) :
    strata.avoiding longer ⊆ strata.avoiding path := by
  apply strata.avoiding_subset
  intro node hFollows hPath
  refine strata.mem_avoiding_iff_self.mpr ⟨hFollows, ?_⟩
  exact fun hNode => hPath (hLonger node hNode)

/- Without a path, everything in the fixpoint is derived. -/
theorem avoiding_nil :
    strata.avoiding [] = strata.fixpoint := by
  apply Set.Subset.antisymm
  · apply strata.avoiding_subset
    intro node hFollows _
    exact strata.consequences_subset_fixpoint hFollows
  · apply strata.fixpoint_subset
    intro node hFollows
    exact strata.mem_avoiding_iff_self.mpr
      ⟨hFollows, List.not_mem_nil⟩

/-
  A node that leads to no node of a path is derived without
  them if it is derived at all.
-/
theorem mem_avoiding_iff_of_not_leadsTo
    {path : List Node}
    {node : Node}
    (hApart : ∀ avoided ∈ path,
      ¬ facts.LeadsTo node avoided) :
    node ∈ strata.avoiding path ↔ node ∈ strata.fixpoint := by
  constructor
  · intro hNode
    rw [← strata.avoiding_nil]
    exact strata.avoiding_anti
      (fun _ hNil => absurd hNil List.not_mem_nil) hNode
  · intro hNode
    have hAll :
        strata.fixpoint ⊆
          { other |
            (∀ avoided ∈ path,
              ¬ facts.LeadsTo other avoided) →
              other ∈ strata.avoiding path } := by
      apply strata.fixpoint_subset
      intro other hFollows hOther
      refine strata.mem_avoiding_iff_self.mpr ⟨?_, ?_⟩
      · refine consequences_mono hFollows ?_ ?_
        · intro further hDepends hFurther
          apply hFurther
          intro avoided hAvoided hLeads
          exact hOther avoided hAvoided
            (hDepends.leadsTo.trans hLeads)
        · exact fun _ _ => Iff.rfl
      · exact fun hPath => hOther other hPath .refl
    exact hAll hNode hApart

/-
  A node outside a path is derived without the path exactly
  when it follows from what is derived without the path and
  without the node itself. The induction looks for the first
  point at which the node is derived; up to there, nothing
  was derived from it.
-/
theorem mem_avoiding_iff
    {path : List Node}
    {node : Node}
    (hPath : node ∉ path) :
    node ∈ strata.avoiding path ↔
      node ∈ facts.consequences
        (strata.avoiding (node :: path)) strata.fixpoint := by
  constructor
  · intro hNode
    have hAll :
        strata.avoiding path ⊆
          { other |
            node ∈ facts.consequences
                (strata.avoiding (node :: path))
                strata.fixpoint ∨
              other ∈ strata.avoiding (node :: path) } := by
      apply strata.avoiding_subset
      intro other hFollows hOther
      by_cases hDerived :
          node ∈ facts.consequences
            (strata.avoiding (node :: path)) strata.fixpoint
      · exact Or.inl hDerived
      · have hFollowsAlone :
            other ∈ facts.consequences
              (strata.avoiding (node :: path))
              strata.fixpoint := by
          refine consequences_mono hFollows ?_ ?_
          · exact fun further _ hFurther =>
              hFurther.resolve_left hDerived
          · exact fun _ _ => Iff.rfl
        refine Or.inr (strata.mem_avoiding_iff_self.mpr
          ⟨hFollowsAlone, ?_⟩)
        intro hMember
        rcases List.mem_cons.mp hMember with rfl | hMember
        · exact hDerived hFollowsAlone
        · exact hOther hMember
    rcases hAll hNode with hDerived | hAvoids
    · exact hDerived
    · exact absurd List.mem_cons_self
        (strata.mem_avoiding_iff_self.mp hAvoids).2
  · intro hFollows
    refine strata.mem_avoiding_iff_self.mpr ⟨?_, hPath⟩
    refine consequences_mono hFollows ?_ ?_
    · intro other _ hOther
      exact strata.avoiding_anti
        (fun _ hMember => List.mem_cons_of_mem _ hMember)
        hOther
    · exact fun _ _ => Iff.rfl

------------------------------------------------------------
-- Answers
------------------------------------------------------------

/-
  All nodes of a path lead to a node, and a set decides the
  node as the derivations that avoid the path do.
-/
structure Settles
    (path : List Node)
    (nodes : Set Node)
    (node : Node) : Prop where
  leadsTo : ∀ above ∈ path, facts.LeadsTo above node
  mem_iff : node ∈ nodes ↔ node ∈ strata.avoiding path

/-
  What an answer says. The answer for a node is whether it is
  derived without the path. That for a rule is whether it
  holds, given sets that decide the nodes it refers to.
-/
def Sound : Inquiry → Bool → Prop
  | .relation path node, answer =>
      (∀ above ∈ path, facts.LeadsTo above node) →
        (answer = true ↔ node ∈ strata.avoiding path)
  | .rule path node rule, answer =>
      ∀ positive negative : Set Node,
        (∀ other, facts.Refers node rule false other →
          strata.Settles path positive other) →
        (∀ other, facts.Refers node rule true other →
          strata.Settles path negative other) →
        (answer = true ↔
          facts.Holds positive negative node rule)

variable {strata}

/- A set that settles a node contains it as it is answered. -/
theorem Settles.answer_iff
    {path : List Node}
    {nodes : Set Node}
    {node : Node}
    {answer : Bool}
    (hSettles : strata.Settles path nodes node)
    (hSound : strata.Sound (.relation path node) answer) :
    answer = true ↔ node ∈ nodes := by
  rw [hSettles.mem_iff]
  exact hSound hSettles.leadsTo

/- A part of a rule holds as it is answered. -/
theorem Sound.part
    {path : List Node}
    {positive negative : Set Node}
    {node : Node}
    {part rule : Rule}
    {answer : Bool}
    (hSound : strata.Sound (.rule path node part) answer)
    (hPositive : ∀ other, facts.Refers node rule false other →
      strata.Settles path positive other)
    (hNegative : ∀ other, facts.Refers node rule true other →
      strata.Settles path negative other)
    (hPart : ∀ {subtracted : Bool} {other : Node},
      facts.Refers node part subtracted other →
        facts.Refers node rule subtracted other) :
    answer = true ↔ facts.Holds positive negative node part :=
  hSound positive negative
    (fun other hRefers => hPositive other (hPart hRefers))
    (fun other hRefers => hNegative other (hPart hRefers))

/- What is subtracted holds as it is answered. -/
theorem Sound.subtracted
    {path : List Node}
    {negative : Set Node}
    {node : Node}
    {base subtract : Rule}
    {answer : Bool}
    (hSound : strata.Sound (.rule path node subtract) answer)
    (hNegative : ∀ other,
      facts.Refers node (.exclusion base subtract) true other →
        strata.Settles path negative other) :
    answer = true ↔
      facts.Holds negative negative node subtract :=
  hSound negative negative
    (fun other hRefers => hNegative other (.subtract hRefers))
    (fun other hRefers => hNegative other (.subtract hRefers))

variable (strata)

/-
  The rule of a node decides it. Below the node the path is
  longer by the node itself. What the rule subtracts cannot
  lead back to the path, since the path leads to the node.
-/
theorem sound_relation_of_rule
    {path : List Node}
    {node : Node}
    {answer : Bool}
    {definition : RelationDefinition}
    (hFind :
      facts.schema.find? node.object.type node.relation =
        some definition)
    (hPath : node ∉ path)
    (hRule :
      strata.Sound (.rule (node :: path) node definition.rule)
        answer) :
    strata.Sound (.relation path node) answer := by
  intro hLeads
  have hAbove :
      ∀ {subtracted : Bool} {other : Node},
        facts.Depends subtracted node other →
          ∀ above ∈ node :: path,
            facts.LeadsTo above other := by
    intro subtracted other hDepends above hMember
    rcases List.mem_cons.mp hMember with rfl | hMember
    · exact hDepends.leadsTo
    · exact (hLeads above hMember).trans hDepends.leadsTo
  have hHolds :=
    hRule (strata.avoiding (node :: path)) strata.fixpoint
      (fun other hRefers =>
        { leadsTo := hAbove ⟨definition, hFind, hRefers⟩
          mem_iff := Iff.rfl })
      (fun other hRefers => by
        have hDepends : facts.Depends true node other :=
          ⟨definition, hFind, hRefers⟩
        refine { leadsTo := hAbove hDepends, mem_iff := ?_ }
        refine (strata.mem_avoiding_iff_of_not_leadsTo ?_).symm
        intro above hMember hBack
        refine strata.not_dependsThroughSubtract node
          ⟨node, other, .refl, hDepends, ?_⟩
        rcases List.mem_cons.mp hMember with rfl | hMember
        · exact hBack
        · exact hBack.trans (hLeads above hMember))
  rw [hHolds, strata.mem_avoiding_iff hPath]
  constructor
  · intro hNode
    exact ⟨definition, hFind, hNode⟩
  · rintro ⟨found, hFound, hNode⟩
    rw [hFind] at hFound
    cases hFound
    exact hNode

/-
  Every answer that can be derived is sound. The induction is
  on the derivation.
-/
theorem sound
    {inquiry : Inquiry}
    {answer : Bool}
    (hAnswers : facts.Answers inquiry answer) :
    strata.Sound inquiry answer := by
  induction hAnswers with
  | undefined hFind =>
      intro _
      simp only [Bool.false_eq_true, false_iff]
      intro hNode
      rcases (strata.mem_avoiding_iff_self.mp hNode).1 with
        ⟨definition, hFound, _⟩
      rw [hFind] at hFound
      cases hFound
  | repeated hPath =>
      intro _
      simp only [Bool.false_eq_true, false_iff]
      intro hNode
      exact (strata.mem_avoiding_iff_self.mp hNode).2 hPath
  | defined hFind hPath _ ih =>
      exact strata.sound_relation_of_rule hFind hPath ih
  | granted hGrants =>
      intro positive negative _ _
      simp only [Holds, true_iff]
      exact Or.inl hGrants
  | member hGroup _ ih =>
      intro positive negative hPositive _
      simp only [Holds, true_iff]
      have hMember := (hPositive _ (.group hGroup)).answer_iff ih
      exact Or.inr ⟨_, hGroup, hMember.mp rfl⟩
  | ungranted hGrants _ ih =>
      intro positive negative hPositive _
      simp only [Holds, Bool.false_eq_true, false_iff]
      rintro (hGrant | ⟨group, hGroup, hMember⟩)
      · exact hGrants hGrant
      · have hAnswer :=
          (hPositive _ (.group hGroup)).answer_iff
            (ih group hGroup)
        exact Bool.false_ne_true (hAnswer.mpr hMember)
  | computed _ ih =>
      intro positive negative hPositive _
      rw [Holds]
      exact (hPositive _ .computed).answer_iff ih
  | related hTarget _ ih =>
      intro positive negative hPositive _
      simp only [Holds, true_iff]
      have hRelated :=
        (hPositive _ (.target hTarget)).answer_iff ih
      exact ⟨_, hTarget, hRelated.mp rfl⟩
  | unrelated _ ih =>
      intro positive negative hPositive _
      simp only [Holds, Bool.false_eq_true, false_iff]
      rintro ⟨target, hTarget, hMember⟩
      have hAnswer :=
        (hPositive _ (.target hTarget)).answer_iff
          (ih target hTarget)
      exact Bool.false_ne_true (hAnswer.mpr hMember)
  | unionTrue hChild _ ih =>
      intro positive negative hPositive hNegative
      rw [Holds, anyHolds_iff]
      have hAnswer :=
        Sound.part ih hPositive hNegative (.union hChild)
      simp only [true_iff]
      exact ⟨_, hChild, hAnswer.mp rfl⟩
  | unionFalse _ ih =>
      intro positive negative hPositive hNegative
      rw [Holds, anyHolds_iff]
      simp only [Bool.false_eq_true, false_iff]
      rintro ⟨child, hChild, hHolds⟩
      have hAnswer :=
        Sound.part (ih child hChild) hPositive hNegative
          (.union hChild)
      exact Bool.false_ne_true (hAnswer.mpr hHolds)
  | intersectionTrue _ ih =>
      intro positive negative hPositive hNegative
      rw [Holds, allHold_iff]
      simp only [true_iff]
      intro child hChild
      have hAnswer :=
        Sound.part (ih child hChild) hPositive hNegative
          (.intersection hChild)
      exact hAnswer.mp rfl
  | intersectionFalse hChild _ ih =>
      intro positive negative hPositive hNegative
      rw [Holds, allHold_iff]
      simp only [Bool.false_eq_true, false_iff]
      intro hAll
      have hAnswer :=
        Sound.part ih hPositive hNegative (.intersection hChild)
      exact Bool.false_ne_true (hAnswer.mpr (hAll _ hChild))
  | exclusionTrue _ _ ihBase ihSubtract =>
      intro positive negative hPositive hNegative
      have hBase :=
        Sound.part ihBase hPositive hNegative .base
      have hSubtract := Sound.subtracted ihSubtract hNegative
      simp only [Holds, true_iff]
      refine ⟨hBase.mp rfl, ?_⟩
      exact fun hHolds =>
        Bool.false_ne_true (hSubtract.mpr hHolds)
  | baseFalse _ ih =>
      intro positive negative hPositive hNegative
      have hBase := Sound.part ih hPositive hNegative .base
      simp only [Holds, Bool.false_eq_true, false_iff]
      exact fun hHolds =>
        Bool.false_ne_true (hBase.mpr hHolds.1)
  | subtractTrue _ ih =>
      intro positive negative hPositive hNegative
      have hSubtract := Sound.subtracted ih hNegative
      simp only [Holds, Bool.false_eq_true, false_iff]
      exact fun hHolds => hHolds.2 (hSubtract.mp rfl)

/- An answer without a path is whether a node holds. -/
theorem answer_iff_mem_fixpoint
    {node : Node}
    {answer : Bool}
    (hAnswers : facts.Answers (.relation [] node) answer) :
    answer = true ↔ node ∈ strata.fixpoint := by
  rw [← strata.avoiding_nil]
  exact strata.sound hAnswers
    (fun _ hNil => absurd hNil List.not_mem_nil)

end Stratification

end Facts

------------------------------------------------------------
-- Decisions
------------------------------------------------------------

namespace Engine

/-
  Where no node depends on itself through the subtract side
  of an exclusion, there are strata, and whichever they are, a
  check that is not aborted is allowed exactly if its node is
  in their fixpoint.
-/
theorem allowed_iff_mem_fixpoint
    {engine : Engine}
    {model : Model}
    {tables : Tables}
    {bounds : Bounds}
    {request : Request}
    {user : UserRef}
    {object : ObjectRef}
    (hModel : engine.model = some model)
    (hUser : UserRef.parse? request.key.user = some user)
    (hObject : ObjectRef.parse? request.key.object = some object)
    (hAcyclic : ∀ node,
      ¬ (facts model tables request user).DependsThroughSubtract
        node node)
    (hDecided : ∀ abort,
      (engine.checkWithin tables bounds request).decision ≠
        .aborted abort) :
    Nonempty (facts model tables request user).Stratification ∧
      ∀ strata : (facts model tables request user).Stratification,
        (engine.checkWithin tables bounds request).decision =
            .allowed ↔
          ⟨request.key.relation, object⟩ ∈ strata.fixpoint := by
  constructor
  · exact Facts.nonempty_stratification
      (finite_visibleTuples tables request) hAcyclic
  · intro strata
    rcases Decision.exists_ofAnswer hDecided with
      ⟨answer, hAnswer⟩
    have hAnswers :=
      answers_of_decision hModel hUser hObject hAnswer
    rw [hAnswer, ← strata.answer_iff_mem_fixpoint hAnswers]
    cases answer <;> decide

end Engine

------------------------------------------------------------
-- An Example
------------------------------------------------------------

namespace Documents

/- The strata of documents: only blocked users are subtracted. -/
def level (node : Node) : Nat :=
  if node.relation = utf8 "blocked" then 0 else 1

/- No group may be blocked. -/
theorem groups_eq_empty (facts : Facts) (node : Node) :
    facts.groups [.plain (utf8 "user")] node = ∅ := by
  apply Set.eq_empty_of_forall_notMem
  rintro group ⟨assigned, _, hAdmits, hGroup⟩
  rcases Option.map_eq_some_iff.mp hGroup with
    ⟨relation, hRelation, _⟩
  simp [Scene.Admits, UserRef.spec, hRelation] at hAdmits

/- What depends on what among the relations of a document. -/
theorem depends_cases
    {facts : Facts}
    (hSchema : facts.schema = schema)
    {subtracted : Bool}
    {node other : Node}
    (hDepends : facts.Depends subtracted node other) :
    level node = 1 ∧ (subtracted = true → level other = 0) := by
  rcases hDepends with ⟨definition, hFind, hRefers⟩
  rw [hSchema] at hFind
  rcases Schema.mem_of_find? hFind with
    ⟨hName, type, hType, hRelation⟩
  have hTypes : type ∈ schema.types := hType
  simp only [schema, List.mem_singleton] at hTypes
  subst hTypes
  simp only [List.mem_cons, List.not_mem_nil, or_false]
    at hRelation
  rcases hRelation with rfl | rfl | rfl
  · cases hRefers with
    | group hGroup =>
        rw [groups_eq_empty] at hGroup
        exact absurd hGroup (Set.notMem_empty other)
  · cases hRefers with
    | group _ =>
        refine ⟨?_, nofun⟩
        rw [level, ← hName]
        decide
  · refine ⟨?_, ?_⟩
    · rw [level, ← hName]
      decide
    · rintro rfl
      cases hRefers with
      | base hBase => cases hBase
      | subtract hSubtract =>
          cases hSubtract
          simp [level]

def strata
    (facts : Facts)
    (hSchema : facts.schema = schema) :
    facts.Stratification where
  level := level
  level_le {node other} hDepends := by
    rw [(depends_cases hSchema hDepends).1, level]
    split <;> omega
  level_lt {node other} hDepends := by
    rcases depends_cases hSchema hDepends with ⟨hNode, hOther⟩
    rw [hNode, hOther rfl]
    exact Nat.zero_lt_one

/- What Alice's request depends on. -/
abbrev aliceFacts : Facts :=
  Engine.facts model tables request alice

/- Alice is derived to be a viewer, since she is found to be. -/
theorem mem_fixpoint :
    ⟨utf8 "viewer", readme⟩ ∈
      (strata aliceFacts rfl).fixpoint := by
  have hModel : engine.model = some model := rfl
  have hUser : UserRef.parse? request.key.user = some alice := by
    decide +kernel
  have hObject :
      ObjectRef.parse? request.key.object = some readme := by
    decide +kernel
  have hAcyclic :=
    (strata aliceFacts rfl).not_dependsThroughSubtract
  have hDecided : ∀ abort,
      (engine.checkWithin tables wide request).decision ≠
        .aborted abort := by
    rw [wide_decision]
    exact fun _ => Decision.noConfusion
  have hAllowed :=
    Engine.allowed_iff_mem_fixpoint hModel hUser hObject
      hAcyclic hDecided
  exact (hAllowed.2 (strata aliceFacts rfl)).mp wide_decision

end Documents

end Rebac
