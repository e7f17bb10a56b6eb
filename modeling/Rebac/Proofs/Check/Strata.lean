import Mathlib.Data.Set.Card
import Mathlib.Logic.Relation
import Mathlib.Order.CompletePartialOrder
import Mathlib.Order.FixedPoints
import Rebac.Proofs.Check.Answers
import Rebac.Proofs.Model.Schema

/-
  This file defines the stratified least fixpoint of the
  rules of a schema over a set of tuples.

  A node depends on the nodes that its rule refers to. Where
  no node depends on itself through the subtract side of an
  exclusion, the nodes can be put into strata: a node is in a
  higher stratum than those that its exclusions subtract, and
  in no lower one than all others that it depends on. The
  nodes of one stratum are then the least set closed under
  their rules, with the strata below it as they are.

  Key definitions include:
    * `Facts.Refers`
    * `Facts.Depends`
    * `Facts.DependsThroughSubtract`
    * `Facts.Holds`
    * `Facts.consequences`
    * `Facts.Stratification`
    * `Facts.Stratification.stage`
    * `Facts.Stratification.fixpoint`
    * `Facts.reach`

  Key theorems include:
    * `Facts.Stratification.consequences_subset_fixpoint`
    * `Facts.Stratification.fixpoint_subset`
    * `Facts.nonempty_stratification`
-/

------------------------------------------------------------
-- Dependencies
------------------------------------------------------------

namespace Rebac

namespace Facts

/-
  `facts.Refers node rule subtracted other` means that the
  rule of a node refers to another node, and whether it does
  so on the subtract side of an exclusion.
-/
inductive Refers
    (facts : Facts)
    (node : Node) : Rule → Bool → Node → Prop where
  | group {allowed : List TypeSpec} {group : Node}
      (hGroup : group ∈ facts.groups allowed node) :
      Refers facts node (.direct allowed) false group
  | computed {relation : Bytes} :
      Refers facts node (.computed relation) false
        ⟨relation, node.object⟩
  | target {tupleset computed : Bytes} {target : Node}
      (hTarget : target ∈
        facts.targets tupleset computed node.object) :
      Refers facts node (.tupleToUserset tupleset computed)
        false target
  | union {children : List Rule} {child : Rule}
      {subtracted : Bool} {other : Node}
      (hChild : child ∈ children)
      (hRefers : Refers facts node child subtracted other) :
      Refers facts node (.union children) subtracted other
  | intersection {children : List Rule} {child : Rule}
      {subtracted : Bool} {other : Node}
      (hChild : child ∈ children)
      (hRefers : Refers facts node child subtracted other) :
      Refers facts node (.intersection children)
        subtracted other
  | base {base subtract : Rule}
      {subtracted : Bool} {other : Node}
      (hRefers : Refers facts node base subtracted other) :
      Refers facts node (.exclusion base subtract)
        subtracted other
  | subtract {base subtract : Rule}
      {subtracted : Bool} {other : Node}
      (hRefers : Refers facts node subtract subtracted other) :
      Refers facts node (.exclusion base subtract) true other

/- A node depends on what the rule of its relation refers to. -/
def Depends
    (facts : Facts)
    (subtracted : Bool)
    (node other : Node) : Prop :=
  ∃ definition,
    facts.schema.find? node.object.type node.relation =
        some definition ∧
      facts.Refers node definition.rule subtracted other

/- A node depends on another one, on either side. -/
def DependsOn (facts : Facts) (node other : Node) : Prop :=
  ∃ subtracted, facts.Depends subtracted node other

/- A node leads to another one along dependencies. -/
abbrev LeadsTo (facts : Facts) : Node → Node → Prop :=
  Relation.ReflTransGen facts.DependsOn

/-
  A node leads to another one along dependencies of which at
  least one is on the subtract side of an exclusion.
-/
def DependsThroughSubtract
    (facts : Facts)
    (node other : Node) : Prop :=
  ∃ middle next,
    facts.LeadsTo node middle ∧
      facts.Depends true middle next ∧
        facts.LeadsTo next other

------------------------------------------------------------
-- Consequences
------------------------------------------------------------

mutual

/-
  Whether a rule of a node holds. On the subtract side of an
  exclusion the nodes of the second set are those that hold,
  and elsewhere the nodes of the first one.
-/
def Holds
    (facts : Facts)
    (positive negative : Set Node)
    (node : Node) : Rule → Prop
  | .direct allowed =>
      facts.Grants allowed node ∨
        ∃ group ∈ facts.groups allowed node,
          group ∈ positive
  | .computed relation =>
      (⟨relation, node.object⟩ : Node) ∈ positive
  | .tupleToUserset tupleset computed =>
      ∃ target ∈ facts.targets tupleset computed node.object,
        target ∈ positive
  | .union children =>
      AnyHolds facts positive negative node children
  | .intersection children =>
      AllHold facts positive negative node children
  | .exclusion base subtract =>
      Holds facts positive negative node base ∧
        ¬ Holds facts negative negative node subtract

/- Whether any of several rules holds. -/
def AnyHolds
    (facts : Facts)
    (positive negative : Set Node)
    (node : Node) : List Rule → Prop
  | [] => False
  | child :: others =>
      Holds facts positive negative node child ∨
        AnyHolds facts positive negative node others

/- Whether all of several rules hold. -/
def AllHold
    (facts : Facts)
    (positive negative : Set Node)
    (node : Node) : List Rule → Prop
  | [] => True
  | child :: others =>
      Holds facts positive negative node child ∧
        AllHold facts positive negative node others

end

section Holding

variable {facts : Facts} {node : Node}
variable {positive negative : Set Node}

theorem anyHolds_iff {children : List Rule} :
    facts.AnyHolds positive negative node children ↔
      ∃ child ∈ children,
        facts.Holds positive negative node child := by
  induction children with
  | nil => simp [AnyHolds]
  | cons child others ih => simp [AnyHolds, ih]

theorem allHold_iff {children : List Rule} :
    facts.AllHold positive negative node children ↔
      ∀ child ∈ children,
        facts.Holds positive negative node child := by
  induction children with
  | nil => simp [AllHold]
  | cons child others ih => simp [AllHold, ih]

/-
  A rule that holds goes on to hold if more of the nodes hold
  that it refers to, and the same ones are subtracted.
-/
theorem Holds.mono
    {rule : Rule}
    {positive' negative' : Set Node}
    (hHolds : facts.Holds positive negative node rule)
    (hPositive : ∀ other,
      facts.Refers node rule false other →
        other ∈ positive → other ∈ positive')
    (hNegative : ∀ other,
      facts.Refers node rule true other →
        (other ∈ negative ↔ other ∈ negative')) :
    facts.Holds positive' negative' node rule := by
  induction rule using Rule.induct
    generalizing positive positive' negative negative' with
  | direct allowed =>
      rw [Holds] at hHolds ⊢
      rcases hHolds with hGrants | ⟨group, hGroup, hMember⟩
      · exact Or.inl hGrants
      · exact Or.inr ⟨group, hGroup,
          hPositive group (.group hGroup) hMember⟩
  | computed relation =>
      rw [Holds] at hHolds ⊢
      exact hPositive _ .computed hHolds
  | tupleToUserset tupleset computed =>
      rw [Holds] at hHolds ⊢
      rcases hHolds with ⟨target, hTarget, hRelated⟩
      exact ⟨target, hTarget,
        hPositive target (.target hTarget) hRelated⟩
  | union children ih =>
      rw [Holds, anyHolds_iff] at hHolds ⊢
      rcases hHolds with ⟨child, hChild, hHolds⟩
      refine ⟨child, hChild, ih child hChild hHolds ?_ ?_⟩
      · intro other hRefers
        exact hPositive other (.union hChild hRefers)
      · intro other hRefers
        exact hNegative other (.union hChild hRefers)
  | intersection children ih =>
      rw [Holds, allHold_iff] at hHolds ⊢
      intro child hChild
      refine ih child hChild (hHolds child hChild) ?_ ?_
      · intro other hRefers
        exact hPositive other (.intersection hChild hRefers)
      · intro other hRefers
        exact hNegative other (.intersection hChild hRefers)
  | exclusion base subtract ihBase ihSubtract =>
      rw [Holds] at hHolds ⊢
      refine ⟨ihBase hHolds.1 ?_ ?_, ?_⟩
      · intro other hRefers
        exact hPositive other (.base hRefers)
      · intro other hRefers
        exact hNegative other (.base hRefers)
      · intro hSubtract
        refine hHolds.2 (ihSubtract hSubtract ?_ ?_)
        · intro other hRefers
          exact (hNegative other (.subtract hRefers)).mpr
        · intro other hRefers
          exact (hNegative other (.subtract hRefers)).symm

end Holding

/-
  The nodes that follow from some nodes that hold, where the
  nodes of the second set are those that are subtracted.
-/
def consequences
    (facts : Facts)
    (positive negative : Set Node) : Set Node :=
  { node |
    ∃ definition,
      facts.schema.find? node.object.type node.relation =
          some definition ∧
        facts.Holds positive negative node definition.rule }

/- What follows depends on the nodes that are referred to. -/
theorem consequences_mono
    {facts : Facts}
    {node : Node}
    {positive positive' negative negative' : Set Node}
    (hNode : node ∈ facts.consequences positive negative)
    (hPositive : ∀ other,
      facts.Depends false node other →
        other ∈ positive → other ∈ positive')
    (hNegative : ∀ other,
      facts.Depends true node other →
        (other ∈ negative ↔ other ∈ negative')) :
    node ∈ facts.consequences positive' negative' := by
  rcases hNode with ⟨definition, hFind, hHolds⟩
  refine ⟨definition, hFind, hHolds.mono ?_ ?_⟩
  · intro other hRefers
    exact hPositive other ⟨definition, hFind, hRefers⟩
  · intro other hRefers
    exact hNegative other ⟨definition, hFind, hRefers⟩

------------------------------------------------------------
-- Strata
------------------------------------------------------------

/-
  Strata of the nodes, numbered from below. What a node
  subtracts is in a lower stratum than the node itself.
-/
structure Stratification (facts : Facts) where
  level : Node → Nat
  level_le {node other : Node}
    (hDepends : facts.Depends false node other) :
    level other ≤ level node
  level_lt {node other : Node}
    (hDepends : facts.Depends true node other) :
    level other < level node

namespace Stratification

variable {facts : Facts} (strata : facts.Stratification)

/-
  One step in a stratum: what is below it stays, and a node
  of the stratum is added where its rule holds.
-/
def operator
    (below : Set Node)
    (level : Nat) : Set Node →o Set Node where
  toFun nodes :=
    below ∪
      { node ∈ facts.consequences nodes below |
        strata.level node = level }
  monotone' := by
    intro nodes more hMore node hNode
    rcases hNode with hBelow | ⟨hFollows, hLevel⟩
    · exact Or.inl hBelow
    · refine Or.inr ⟨consequences_mono hFollows ?_ ?_, hLevel⟩
      · exact fun other _ hOther => hMore hOther
      · exact fun _ _ => Iff.rfl

/- The nodes that hold in the strata below a number. -/
def stage : Nat → Set Node
  | 0 => ∅
  | level + 1 => (strata.operator (stage level) level).lfp

/- The nodes that hold in any stratum. -/
def fixpoint : Set Node :=
  ⋃ level, strata.stage level

/- A stage is closed under the rules of its last stratum. -/
theorem mem_stage_succ_iff
    {level : Nat}
    {node : Node} :
    node ∈ strata.stage (level + 1) ↔
      node ∈ strata.stage level ∨
        node ∈ facts.consequences (strata.stage (level + 1))
            (strata.stage level) ∧
          strata.level node = level := by
  have hFixed :=
    (strata.operator (strata.stage level) level).map_lfp
  constructor
  · intro hNode
    rw [stage, ← hFixed] at hNode
    exact hNode
  · intro hNode
    rw [stage, ← hFixed]
    exact hNode

/- A stage is within every set that is closed like it. -/
theorem stage_succ_subset
    {level : Nat}
    {nodes : Set Node}
    (hBelow : strata.stage level ⊆ nodes)
    (hClosed : ∀ node,
      node ∈ facts.consequences nodes (strata.stage level) →
        strata.level node = level → node ∈ nodes) :
    strata.stage (level + 1) ⊆ nodes := by
  apply OrderHom.lfp_le
  rintro node (hNode | ⟨hFollows, hLevel⟩)
  · exact hBelow hNode
  · exact hClosed node hFollows hLevel

theorem stage_mono {lower higher : Nat} (hLe : lower ≤ higher) :
    strata.stage lower ⊆ strata.stage higher := by
  induction higher, hLe using Nat.le_induction with
  | base => exact Set.Subset.rfl
  | succ level _ ih =>
      intro node hNode
      exact strata.mem_stage_succ_iff.mpr (Or.inl (ih hNode))

/- A node that holds at a stage holds at that of its level. -/
theorem mem_stage_level
    {level : Nat}
    {node : Node}
    (hNode : node ∈ strata.stage level) :
    node ∈ strata.stage (strata.level node + 1) := by
  induction level with
  | zero => exact absurd hNode (Set.notMem_empty node)
  | succ level ih =>
      rcases strata.mem_stage_succ_iff.mp hNode with
        hBelow | ⟨_, hLevel⟩
      · exact ih hBelow
      · rw [hLevel]
        exact hNode

/- Stages above the level of a node agree on it. -/
theorem mem_stage_iff
    {level : Nat}
    {node : Node}
    (hLevel : strata.level node < level) :
    node ∈ strata.stage level ↔ node ∈ strata.fixpoint := by
  constructor
  · intro hNode
    exact Set.mem_iUnion.mpr ⟨level, hNode⟩
  · intro hNode
    rcases Set.mem_iUnion.mp hNode with ⟨other, hOther⟩
    exact strata.stage_mono hLevel
      (strata.mem_stage_level hOther)

/- What follows from the fixpoint is in it. -/
theorem consequences_subset_fixpoint :
    facts.consequences strata.fixpoint strata.fixpoint ⊆
      strata.fixpoint := by
  intro node hNode
  rw [← strata.mem_stage_iff (Nat.lt_succ_self _)]
  apply strata.mem_stage_succ_iff.mpr
  refine Or.inr ⟨consequences_mono hNode ?_ ?_, rfl⟩
  · intro other hDepends hOther
    have hLe := strata.level_le hDepends
    exact (strata.mem_stage_iff
      (Nat.lt_succ_of_le hLe)).mpr hOther
  · intro other hDepends
    exact (strata.mem_stage_iff
      (strata.level_lt hDepends)).symm

/-
  The fixpoint is within every set that is closed under the
  rules while the fixpoint is what is subtracted.
-/
theorem fixpoint_subset
    {nodes : Set Node}
    (hClosed :
      facts.consequences nodes strata.fixpoint ⊆ nodes) :
    strata.fixpoint ⊆ nodes := by
  intro node hNode
  rcases Set.mem_iUnion.mp hNode with ⟨level, hStage⟩
  clear hNode
  induction level generalizing node with
  | zero => exact absurd hStage (Set.notMem_empty node)
  | succ level ih =>
      refine strata.stage_succ_subset ih ?_ hStage
      intro other hOther hLevel
      apply hClosed
      refine consequences_mono hOther ?_ ?_
      · exact fun _ _ hMem => hMem
      · intro further hDepends
        have hLt := strata.level_lt hDepends
        exact strata.mem_stage_iff (hLevel ▸ hLt)

/- A node is in no lower stratum than what it leads to. -/
theorem level_le_of_leadsTo
    {node other : Node}
    (hLeads : facts.LeadsTo node other) :
    strata.level other ≤ strata.level node := by
  induction hLeads with
  | refl => exact Nat.le_refl _
  | tail _ hLast ih =>
      rcases hLast with ⟨_ | _, hDepends⟩
      · exact (strata.level_le hDepends).trans ih
      · exact (strata.level_lt hDepends).le.trans ih

/- With strata, no node depends on itself by subtraction. -/
theorem not_dependsThroughSubtract
    (strata : facts.Stratification)
    (node : Node) :
    ¬ facts.DependsThroughSubtract node node := by
  rintro ⟨middle, next, hBefore, hDepends, hAfter⟩
  have hFirst := strata.level_le_of_leadsTo hBefore
  have hSecond := strata.level_lt hDepends
  have hThird := strata.level_le_of_leadsTo hAfter
  omega

end Stratification

------------------------------------------------------------
-- Existence of Strata
------------------------------------------------------------

section Existence

variable {facts : Facts}

/- Whether the type of a node's object has its relation. -/
def Defines (facts : Facts) (node : Node) : Prop :=
  facts.schema.find? node.object.type node.relation ≠ none

/- The names of all relations of a schema. -/
def relationNames (facts : Facts) : List Bytes :=
  facts.schema.types.flatMap fun type =>
    type.relations.map fun definition => definition.name

/- The objects of the users of the visible tuples. -/
def userObjects (facts : Facts) : Set ObjectRef :=
  (fun parts => parts.user.object) '' facts.tuples

theorem Defines.relation_mem
    {node : Node}
    (hDefines : facts.Defines node) :
    node.relation ∈ facts.relationNames := by
  rcases Option.ne_none_iff_exists'.mp hDefines with
    ⟨definition, hFind⟩
  rcases Schema.mem_of_find? hFind with
    ⟨hName, type, hType, hRelation⟩
  rw [relationNames, List.mem_flatMap]
  exact ⟨type, hType, List.mem_map.mpr
    ⟨definition, hRelation, hName⟩⟩

/- A rule refers to its own object or to that of a user. -/
theorem Refers.object_eq_or_mem
    {node other : Node}
    {rule : Rule}
    {subtracted : Bool}
    (hRefers : facts.Refers node rule subtracted other) :
    other.object = node.object ∨
      other.object ∈ facts.userObjects := by
  induction hRefers with
  | group hGroup =>
      rcases hGroup with ⟨assigned, hAssigned, _, hNode⟩
      rcases Option.map_eq_some_iff.mp hNode with ⟨_, _, rfl⟩
      exact Or.inr ⟨_, hAssigned, rfl⟩
  | computed => exact Or.inl rfl
  | target hTarget =>
      rcases hTarget with ⟨assigned, hAssigned, _, rfl⟩
      exact Or.inr ⟨_, hAssigned, rfl⟩
  | union _ _ ih => exact ih
  | intersection _ _ ih => exact ih
  | base _ ih => exact ih
  | subtract _ ih => exact ih

theorem LeadsTo.object_eq_or_mem
    {node other : Node}
    (hLeads : facts.LeadsTo node other) :
    other.object = node.object ∨
      other.object ∈ facts.userObjects := by
  induction hLeads with
  | refl => exact Or.inl rfl
  | tail _ hLast ih =>
      rcases hLast with ⟨_, _, _, hRefers⟩
      rcases hRefers.object_eq_or_mem with hSame | hUser
      · rw [hSame]
        exact ih
      · exact Or.inr hUser

/- A dependency leads to its end. -/
theorem Depends.leadsTo
    {subtracted : Bool}
    {node other : Node}
    (hDepends : facts.Depends subtracted node other) :
    facts.LeadsTo node other :=
  .single ⟨subtracted, hDepends⟩

theorem DependsThroughSubtract.leadsTo
    {node other : Node}
    (hThrough : facts.DependsThroughSubtract node other) :
    facts.LeadsTo node other := by
  rcases hThrough with
    ⟨middle, next, hBefore, hDepends, hAfter⟩
  exact hBefore.trans (hDepends.leadsTo.trans hAfter)

/-
  The relations that a node depends on through the subtract
  side of an exclusion.
-/
def subtractedBelow (facts : Facts) (node : Node) : Set Node :=
  { other |
    facts.Defines other ∧
      facts.DependsThroughSubtract node other }

/-
  The relations that can be met on the way from an object:
  those that its type has, and those that the types of the
  tuples' users have.
-/
def reach (facts : Facts) (start : ObjectRef) : Set Node :=
  { node |
    facts.Defines node ∧
      (node.object = start ∨
        node.object ∈ facts.userObjects) }

/- Finitely many tuples lead to finitely many relations. -/
theorem finite_reach
    (hFinite : facts.tuples.Finite)
    (start : ObjectRef) :
    (facts.reach start).Finite := by
  have hObjects :
      (insert start facts.userObjects).Finite :=
    (hFinite.image _).insert _
  have hNames :
      { name | name ∈ facts.relationNames }.Finite :=
    List.finite_toSet _
  refine Set.Finite.subset
    (Set.Finite.image2 Node.mk hNames hObjects) ?_
  rintro node ⟨hDefines, hObject⟩
  exact ⟨node.relation, hDefines.relation_mem, node.object,
    hObject, rfl⟩

theorem finite_subtractedBelow
    (hFinite : facts.tuples.Finite)
    (node : Node) :
    (facts.subtractedBelow node).Finite := by
  refine (finite_reach hFinite node.object).subset ?_
  rintro other ⟨hDefines, hThrough⟩
  exact ⟨hDefines, LeadsTo.object_eq_or_mem hThrough.leadsTo⟩

/- What lies below is below everything that leads to it. -/
theorem subtractedBelow_subset
    {node other : Node}
    (hLeads : facts.LeadsTo node other) :
    facts.subtractedBelow other ⊆
      facts.subtractedBelow node := by
  rintro further ⟨hDefines, middle, next, hBefore, hRest⟩
  exact ⟨hDefines, middle, next, hLeads.trans hBefore, hRest⟩

open Classical in
/-
  If no node depends on itself through the subtract side of
  an exclusion and there are finitely many tuples, there are
  strata: a relation is as high as the number of those that
  it depends on through such a side.
-/
theorem nonempty_stratification
    (hFinite : facts.tuples.Finite)
    (hAcyclic : ∀ node,
      ¬ facts.DependsThroughSubtract node node) :
    Nonempty facts.Stratification := by
  let level : Node → Nat := fun node =>
    if facts.Defines node then
      (facts.subtractedBelow node).ncard + 1
    else
      0
  have hDefined :
      ∀ {subtracted : Bool} {node other : Node},
        facts.Depends subtracted node other →
          level node = (facts.subtractedBelow node).ncard + 1 := by
    rintro subtracted node other ⟨definition, hFind, _⟩
    have hDefines : facts.Defines node := by
      rw [Defines, hFind]
      exact Option.some_ne_none _
    exact if_pos hDefines
  refine ⟨{ level := level, level_le := ?_, level_lt := ?_ }⟩
  · intro node other hDepends
    rw [hDefined hDepends]
    by_cases hOther : facts.Defines other
    · have hSubset := subtractedBelow_subset hDepends.leadsTo
      have hCard := Set.ncard_le_ncard hSubset
        (finite_subtractedBelow hFinite node)
      simpa [level, hOther] using hCard
    · simp [level, hOther]
  · intro node other hDepends
    rw [hDefined hDepends]
    by_cases hOther : facts.Defines other
    · have hSubset :
          facts.subtractedBelow other ⊂
            facts.subtractedBelow node := by
        refine (Set.ssubset_iff_of_subset
          (subtractedBelow_subset hDepends.leadsTo)).mpr ?_
        refine ⟨other, ?_, fun hSelf => hAcyclic other hSelf.2⟩
        exact ⟨hOther, node, other, .refl, hDepends, .refl⟩
      have hCard := Set.ncard_lt_ncard hSubset
        (finite_subtractedBelow hFinite node)
      simpa [level, hOther] using hCard
    · simp [level, hOther]

end Existence

end Facts

end Rebac
