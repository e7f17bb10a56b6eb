import Rebac.Proofs.Check.Strata

/-
  This file proves when an answer below one path is the
  answer below another path as well.

  A node of the path does not hold, so a longer path may
  change an answer either way: it takes away derivations, and
  it takes away what is subtracted. An answer passes from one
  path to another if the paths agree wherever its derivation
  looks. What the subtract side of an exclusion refers to has
  to pass with either answer, since its answer is turned over.

  Key definitions include:
    * `Facts.Passage`
    * `Facts.Shutter`
    * `Facts.Passage.Carries`
    * `Facts.Passage.insertion`
    * `Facts.Passage.shortening`
    * `Facts.Shutter.apart`
    * `Facts.Shutter.denied`

  Key theorems include:
    * `Facts.Passage.carries`
    * `Facts.Answers.insert`
    * `Facts.Answers.withoutPath`
-/

namespace Rebac

namespace Facts

------------------------------------------------------------
-- Passages
------------------------------------------------------------

/-
  Conditions under which answers pass from one path to
  another. They go on to hold along the dependencies of a
  node, below which both paths are longer by the node.
-/
structure Passage (facts : Facts) where
  Links : (answer : Bool) →
    (path other : List Node) → Node → Prop
  repeated {path other : List Node} {node : Node}
    (hLinks : Links false path other node)
    (hPath : node ∈ path) :
    facts.Answers (.relation other node) false
  fresh {answer : Bool} {path other : List Node} {node : Node}
    (hLinks : Links answer path other node)
    (hPath : node ∉ path)
    (hOther : node ∈ other)
    (hAnswers : facts.Answers (.relation path node) answer) :
    answer = false
  below {answer passed subtracted : Bool}
    {path other : List Node} {node next : Node}
    (hLinks : Links answer path other node)
    (hDepends : facts.Depends subtracted node next)
    (hPassed : subtracted = true ∨ passed = answer) :
    Links passed (node :: path) (node :: other) next

/-
  Conditions under which a node never holds: `Above` says
  which paths may be above a node.
-/
structure Shutter (facts : Facts) (shut : Node) where
  Above : (path : List Node) → Node → Prop
  below {path : List Node} {node next : Node}
    (hAbove : Above path node)
    (hDepends : facts.DependsOn node next) :
    Above (node :: path) next
  never {path : List Node}
    (hAbove : Above path shut) :
    ¬ facts.Answers (.relation path shut) true

namespace Passage

variable {facts : Facts} (passage : facts.Passage)

/- What a rule refers to is linked, with its answer or with any. -/
structure LinksAll
    (answer : Bool)
    (path other : List Node)
    (node : Node)
    (rule : Rule) : Prop where
  positive {next : Node}
    (hRefers : facts.Refers node rule false next) :
    passage.Links answer path other next
  negative {next : Node}
    (hRefers : facts.Refers node rule true next)
    (either : Bool) :
    passage.Links either path other next

/- An answer is one below every path that it passes to. -/
def Carries : Inquiry → Bool → Prop
  | .relation path node, answer =>
      ∀ other, passage.Links answer path other node →
        facts.Answers (.relation other node) answer
  | .rule path node rule, answer =>
      ∀ other, passage.LinksAll answer path other node rule →
        facts.Answers (.rule other node rule) answer

variable {passage}
variable {answer : Bool}
variable {path other : List Node}
variable {node : Node}

/- What a part refers to, the whole rule refers to. -/
theorem LinksAll.part
    {part rule : Rule}
    (hLinks : passage.LinksAll answer path other node rule)
    (hPart : ∀ {subtracted : Bool} {next : Node},
      facts.Refers node part subtracted next →
        facts.Refers node rule subtracted next) :
    passage.LinksAll answer path other node part where
  positive hRefers := hLinks.positive (hPart hRefers)
  negative hRefers := hLinks.negative (hPart hRefers)

/- What is subtracted is linked with any answer. -/
theorem LinksAll.subtract
    {base subtract : Rule}
    (hLinks :
      passage.LinksAll answer path other node
        (.exclusion base subtract))
    (either : Bool) :
    passage.LinksAll either path other node subtract where
  positive hRefers :=
    hLinks.negative (.subtract hRefers) either
  negative hRefers := hLinks.negative (.subtract hRefers)

variable (passage)

/- A relation is linked to what its rule refers to. -/
theorem linksAll_of_links
    {definition : RelationDefinition}
    (hFind :
      facts.schema.find? node.object.type node.relation =
        some definition)
    (hLinks : passage.Links answer path other node) :
    passage.LinksAll answer (node :: path) (node :: other) node
      definition.rule where
  positive hRefers :=
    passage.below hLinks ⟨definition, hFind, hRefers⟩ (.inr rfl)
  negative hRefers _ :=
    passage.below hLinks ⟨definition, hFind, hRefers⟩ (.inl rfl)

/-
  Every answer that can be derived is carried along. The
  induction is on the derivation.
-/
theorem carries
    {inquiry : Inquiry}
    (hAnswers : facts.Answers inquiry answer) :
    passage.Carries inquiry answer := by
  induction hAnswers with
  | undefined hFind => exact fun _ _ => .undefined hFind
  | repeated hPath =>
      exact fun _ hLinks => passage.repeated hLinks hPath
  | @defined path node answer definition hFind hPath hRule ih =>
      intro other hLinks
      by_cases hOther : node ∈ other
      · have hFalse :=
          passage.fresh hLinks hPath hOther
            (.defined hFind hPath hRule)
        rw [hFalse]
        exact .repeated hOther
      · exact .defined hFind hOther
          (ih _ (passage.linksAll_of_links hFind hLinks))
  | granted hGrants => exact fun _ _ => .granted hGrants
  | member hGroup _ ih =>
      exact fun other hLinks =>
        .member hGroup
          (ih other (hLinks.positive (.group hGroup)))
  | ungranted hGrants _ ih =>
      exact fun other hLinks =>
        .ungranted hGrants fun group hGroup =>
          ih group hGroup other
            (hLinks.positive (.group hGroup))
  | computed _ ih =>
      exact fun other hLinks =>
        .computed (ih other (hLinks.positive .computed))
  | related hTarget _ ih =>
      exact fun other hLinks =>
        .related hTarget
          (ih other (hLinks.positive (.target hTarget)))
  | unrelated _ ih =>
      exact fun other hLinks =>
        .unrelated fun target hTarget =>
          ih target hTarget other
            (hLinks.positive (.target hTarget))
  | unionTrue hChild _ ih =>
      exact fun other hLinks =>
        .unionTrue hChild
          (ih other (hLinks.part (.union hChild)))
  | unionFalse _ ih =>
      exact fun other hLinks =>
        .unionFalse fun child hChild =>
          ih child hChild other (hLinks.part (.union hChild))
  | intersectionTrue _ ih =>
      exact fun other hLinks =>
        .intersectionTrue fun child hChild =>
          ih child hChild other
            (hLinks.part (.intersection hChild))
  | intersectionFalse hChild _ ih =>
      exact fun other hLinks =>
        .intersectionFalse hChild
          (ih other (hLinks.part (.intersection hChild)))
  | exclusionTrue _ _ ihBase ihSubtract =>
      exact fun other hLinks =>
        .exclusionTrue (ihBase other (hLinks.part .base))
          (ihSubtract other (hLinks.subtract false))
  | baseFalse _ ih =>
      exact fun other hLinks =>
        .baseFalse (ih other (hLinks.part .base))
  | subtractTrue _ ih =>
      exact fun other hLinks =>
        .subtractTrue (ih other (hLinks.subtract true))

------------------------------------------------------------
-- Longer Paths
------------------------------------------------------------

/-
  A path gets longer by a node that never holds below it. The
  derivation does not look there, or it finds what the longer
  path says.
-/
def insertion
    {shut : Node}
    (shutter : facts.Shutter shut) :
    facts.Passage where
  Links _ path other node :=
    (∀ above, above ∈ other ↔ above = shut ∨ above ∈ path) ∧
      shutter.Above path node
  repeated {path other node} hLinks hPath :=
    .repeated ((hLinks.1 node).mpr (.inr hPath))
  fresh {answer path other node} hLinks hPath hOther hAnswers := by
    rcases (hLinks.1 node).mp hOther with rfl | hOld
    · cases answer with
      | false => rfl
      | true => exact absurd hAnswers (shutter.never hLinks.2)
    · exact absurd hOld hPath
  below hLinks hDepends _ := by
    refine ⟨fun above => ?_,
      shutter.below hLinks.2 ⟨_, hDepends⟩⟩
    rw [List.mem_cons, List.mem_cons, hLinks.1 above]
    exact or_left_comm

------------------------------------------------------------
-- Shorter Paths
------------------------------------------------------------

/-
  A path loses nodes that lead to an origin, which does not
  depend on itself through the subtract side of an exclusion.
  Below the origin only what holds is carried along. What is
  subtracted there does not lead back to the origin, so that
  it does not meet the nodes that are lost.
-/
def shortening
    (origin : Node)
    (hAcyclic : ¬ facts.DependsThroughSubtract origin origin) :
    facts.Passage where
  Links answer path other node :=
    (∀ above ∈ other, above ∈ path) ∧
      (∀ above ∈ path,
        above ∈ other ∨ facts.LeadsTo above origin) ∧
      (answer = true ∧ facts.LeadsTo origin node ∨
        ¬ facts.LeadsTo node origin)
  repeated {path other node} hLinks hPath := by
    rcases hLinks with ⟨_, hKept, hHolds | hApart⟩
    · cases hHolds.1
    · exact .repeated ((hKept node hPath).resolve_right hApart)
  fresh {answer path other node} hLinks hPath hOther _ :=
    absurd (hLinks.1 node hOther) hPath
  below {answer passed subtracted path other node next}
      hLinks hDepends hPassed := by
    rcases hLinks with ⟨hShorter, hKept, hSide⟩
    refine ⟨?_, ?_, ?_⟩
    · exact List.cons_subset_cons node hShorter
    · intro above hAbove
      rcases List.mem_cons.mp hAbove with rfl | hAbove
      · exact .inl List.mem_cons_self
      · exact (hKept above hAbove).imp_left
          (List.mem_cons_of_mem node)
    · rcases hSide with ⟨hHolds, hLeads⟩ | hApart
      · rcases hPassed with rfl | rfl
        · exact .inr fun hBack =>
            hAcyclic ⟨node, next, hLeads, hDepends, hBack⟩
        · exact .inl ⟨hHolds, hLeads.trans hDepends.leadsTo⟩
      · exact .inr fun hBack =>
          hApart (hDepends.leadsTo.trans hBack)

end Passage

variable {facts : Facts}
variable {path : List Node}
variable {node : Node}

/- An answer stays the same below a node that is shut. -/
theorem Answers.insert
    {shut : Node}
    {answer : Bool}
    (hAnswers : facts.Answers (.relation [] node) answer)
    (shutter : facts.Shutter shut)
    (hAbove : shutter.Above [] node) :
    facts.Answers (.relation [shut] node) answer := by
  refine (Passage.insertion shutter).carries hAnswers [shut]
    ⟨?_, hAbove⟩
  intro above
  rw [List.mem_cons]

/-
  Below a node that does not depend on itself through the
  subtract side of an exclusion, whatever holds also holds
  without a path that leads to the node.
-/
theorem Answers.withoutPath
    {origin : Node}
    (hAnswers : facts.Answers (.relation path node) true)
    (hAcyclic : ¬ facts.DependsThroughSubtract origin origin)
    (hPath : ∀ above ∈ path, facts.LeadsTo above origin)
    (hNode : facts.LeadsTo origin node) :
    facts.Answers (.relation [] node) true := by
  refine (Passage.shortening origin hAcyclic).carries hAnswers []
    ⟨nofun, ?_, .inl ⟨rfl, hNode⟩⟩
  exact fun above hAbove => .inr (hPath above hAbove)

------------------------------------------------------------
-- Shut Nodes
------------------------------------------------------------

namespace Shutter

/- A node is not met below what does not lead to it. -/
def apart (shut : Node) : facts.Shutter shut where
  Above _ node := ¬ facts.LeadsTo node shut
  below hAbove hDepends hLeads :=
    hAbove (.head hDepends hLeads)
  never hAbove := absurd .refl hAbove

/-
  A node that does not hold, and that does not depend on
  itself through a subtract side, does not hold below paths
  that lead to it either.
-/
def denied
    {shut : Node}
    (hAcyclic : ¬ facts.DependsThroughSubtract shut shut)
    (hDenied : facts.Answers (.relation [] shut) false) :
    facts.Shutter shut where
  Above path node :=
    facts.LeadsTo node shut →
      ∀ above ∈ path, facts.LeadsTo above shut
  below hAbove hDepends hLeads := by
    have hNode := Relation.ReflTransGen.head hDepends hLeads
    exact List.forall_mem_cons.mpr ⟨hNode, hAbove hNode⟩
  never hAbove hAnswers := by
    have hHolds :=
      hAnswers.withoutPath hAcyclic (hAbove .refl) .refl
    cases hHolds.unique hDenied

end Shutter

end Facts

end Rebac
