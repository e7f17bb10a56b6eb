import Rebac.Proofs.Check.Fixpoint
import Rebac.Proofs.Model.Compile

/-
  This file proves that without exclusions more tuples never
  allow less.

  Where no rule subtracts anything, all nodes are in one
  stratum, and what holds is the least set of nodes that is
  closed under the rules. Facts in which the tuples make no
  less hold have a fixpoint that is no smaller, however much
  two evaluations differ in what they look at.

  Key definitions include:
    * `Rule.Positive`
    * `Schema.Positive`
    * `Facts.flat`
    * `Facts.Extends`

  Key theorems include:
    * `Facts.Extends.holds`
    * `Facts.Extends.fixpoint_subset`
    * `Engine.not_denied_of_subset`
-/

namespace Rebac

------------------------------------------------------------
-- Positive Schemas
------------------------------------------------------------

namespace Rule

/- Whether a rule is an exclusion. -/
def isExclusion : Rule → Bool
  | .exclusion _ _ => true
  | _ => false

/- No exclusion occurs in a rule. -/
def Positive (rule : Rule) : Prop :=
  ∀ part ∈ rule.parts, part.isExclusion = false

instance (rule : Rule) : Decidable rule.Positive := by
  unfold Positive
  infer_instance

theorem Positive.child
    {rule child : Rule}
    (hPositive : rule.Positive)
    (hChild : child ∈ rule.children) :
    child.Positive :=
  fun part hPart =>
    hPositive part (mem_parts_iff.mpr (.inr ⟨child, hChild, hPart⟩))

theorem not_positive_exclusion
    {base subtract : Rule} :
    ¬ (Rule.exclusion base subtract).Positive := by
  intro hPositive
  cases hPositive _ (self_mem_parts _)

end Rule

namespace Schema

/- No exclusion occurs in the rules of a schema. -/
def Positive (schema : Schema) : Prop :=
  ∀ type ∈ schema.types, ∀ definition ∈ type.relations,
    definition.rule.Positive

instance (schema : Schema) : Decidable schema.Positive := by
  unfold Positive
  infer_instance

theorem Positive.rule
    {schema : Schema}
    {type relation : Bytes}
    {definition : RelationDefinition}
    (hPositive : schema.Positive)
    (hFind : schema.find? type relation = some definition) :
    definition.rule.Positive := by
  rcases (mem_of_find? hFind).2 with ⟨found, hFound, hDefinition⟩
  exact hPositive found hFound definition hDefinition

end Schema

------------------------------------------------------------
-- One Stratum
------------------------------------------------------------

namespace Facts

variable {facts others : Facts}
variable {node other : Node}
variable {rule : Rule}

/- Only an exclusion refers to what it subtracts. -/
theorem Refers.eq_false
    {subtracted : Bool}
    (hRefers : facts.Refers node rule subtracted other)
    (hPositive : rule.Positive) :
    subtracted = false := by
  induction hRefers with
  | group _ => rfl
  | computed => rfl
  | target _ => rfl
  | union hChild _ ih => exact ih (hPositive.child hChild)
  | intersection hChild _ ih =>
      exact ih (hPositive.child hChild)
  | base _ _ => exact absurd hPositive Rule.not_positive_exclusion
  | subtract _ _ =>
      exact absurd hPositive Rule.not_positive_exclusion

/- All nodes are in one stratum if nothing is subtracted. -/
def flat
    (facts : Facts)
    (hPositive : facts.schema.Positive) :
    facts.Stratification where
  level _ := 0
  level_le _ := Nat.le_refl 0
  level_lt hDepends := by
    rcases hDepends with ⟨definition, hFind, hRefers⟩
    cases hRefers.eq_false (hPositive.rule hFind)

------------------------------------------------------------
-- Extensions
------------------------------------------------------------

/-
  `facts.Extends others nodes` means that, where some nodes
  hold, the tuples of the first facts make no less hold than
  those of the others.
-/
structure Extends (facts others : Facts) (nodes : Set Node) :
    Prop where
  schema : facts.schema = others.schema
  direct {allowed : List TypeSpec} {node : Node}
    (hDirect :
      others.Holds nodes nodes node (.direct allowed)) :
    facts.Holds nodes nodes node (.direct allowed)
  targets {tupleset computed : Bytes} {object : ObjectRef} :
    others.targets tupleset computed object ⊆
      facts.targets tupleset computed object

/-
  A rule without exclusions goes on to hold in an extension.
  The induction is on the rule; its tuples are looked at in
  its direct and tupleset parts only.
-/
theorem Extends.holds
    {nodes negative : Set Node}
    (hExtends : facts.Extends others nodes)
    (hPositive : rule.Positive)
    (hHolds : others.Holds nodes negative node rule) :
    facts.Holds nodes nodes node rule := by
  induction rule using Rule.induct with
  | direct allowed =>
      rw [Holds] at hHolds
      apply hExtends.direct
      rw [Holds]
      exact hHolds
  | computed relation =>
      rw [Holds] at hHolds ⊢
      exact hHolds
  | tupleToUserset tupleset computed =>
      rw [Holds] at hHolds ⊢
      rcases hHolds with ⟨target, hTarget, hRelated⟩
      exact ⟨target, hExtends.targets hTarget, hRelated⟩
  | union children ih =>
      rw [Holds, anyHolds_iff] at hHolds ⊢
      rcases hHolds with ⟨child, hChild, hHolds⟩
      exact ⟨child, hChild,
        ih child hChild (hPositive.child hChild) hHolds⟩
  | intersection children ih =>
      rw [Holds, allHold_iff] at hHolds ⊢
      intro child hChild
      exact ih child hChild (hPositive.child hChild)
        (hHolds child hChild)
  | exclusion base subtract _ _ =>
      exact absurd hPositive Rule.not_positive_exclusion

/- What holds holds in every extension. -/
theorem Extends.fixpoint_subset
    {strata : facts.Stratification}
    {before : others.Stratification}
    (hExtends : facts.Extends others strata.fixpoint)
    (hPositive : others.schema.Positive) :
    before.fixpoint ⊆ strata.fixpoint := by
  apply before.fixpoint_subset
  intro node hNode
  rcases hNode with ⟨definition, hFind, hHolds⟩
  apply strata.consequences_subset_fixpoint
  refine ⟨definition, ?_, ?_⟩
  · rw [hExtends.schema]
    exact hFind
  · exact hExtends.holds (hPositive.rule hFind) hHolds

/- More tuples make no less hold, whatever holds by itself. -/
theorem extends_of_subset
    (hSchema : facts.schema = others.schema)
    (hUser : facts.user = others.user)
    (hTuples : others.tuples ⊆ facts.tuples)
    (nodes : Set Node) :
    facts.Extends others nodes where
  schema := hSchema
  direct hDirect := by
    rw [Holds] at hDirect ⊢
    rcases hDirect with
      ⟨assigned, hUsers, hAdmits, hCovers⟩ |
        ⟨group, ⟨assigned, hUsers, hGroup⟩, hHolds⟩
    · refine .inl ⟨assigned, hTuples hUsers, hAdmits, ?_⟩
      rw [hUser]
      exact hCovers
    · exact .inr
        ⟨group, ⟨assigned, hTuples hUsers, hGroup⟩, hHolds⟩
  targets {_ _ _} target hTarget := by
    rcases hTarget with ⟨assigned, hUsers, hPlain, hNode⟩
    exact ⟨assigned, hTuples hUsers, hPlain, hNode⟩

end Facts

------------------------------------------------------------
-- Decisions
------------------------------------------------------------

namespace Engine

/- A request that is allowed has been understood. -/
theorem understood_of_allowed
    {engine : Engine}
    {tables : Tables}
    {bounds : Bounds}
    {request : Request}
    (hAllowed :
      (engine.checkWithin tables bounds request).decision =
        .allowed) :
    ∃ question, engine.Understood tables request question := by
  have hDecided : ∀ abort,
      (engine.checkWithin tables bounds request).decision ≠
        .aborted abort := by
    rw [hAllowed]
    exact fun _ => Decision.noConfusion
  exact understood_of_decided hDecided

/- A decision without exclusions is whether its node holds. -/
theorem mem_flat_iff
    {engine : Engine}
    {model : Model}
    {tables : Tables}
    {bounds : Bounds}
    {request : Request}
    {user : UserRef}
    {object : ObjectRef}
    {answer : Bool}
    (hModel : engine.model = some model)
    (hPositive : model.schema.Positive)
    (hUser : UserRef.parse? request.key.user = some user)
    (hObject : ObjectRef.parse? request.key.object = some object)
    (hDecision :
      (engine.checkWithin tables bounds request).decision =
        .ofAnswer answer) :
    ⟨request.key.relation, object⟩ ∈
        ((facts model tables request user).flat
          hPositive).fixpoint ↔
      answer = true := by
  have hAnswers :=
    answers_of_decision hModel hUser hObject hDecision
  exact (Facts.Stratification.answer_iff_mem_fixpoint _
    hAnswers).symm

/-
  Where no rule has an exclusion, a check that is allowed over
  some tuples is not denied over more of them, whichever of
  them are stored and whatever the limits of the two are. So
  to grant a tuple revokes nothing, and to revoke one grants
  nothing.
-/
theorem not_denied_of_subset
    {first second : Engine}
    {model : Model}
    {tables others : Tables}
    {bounds limits : Bounds}
    {request another : Request}
    (hFirst : first.model = some model)
    (hSecond : second.model = some model)
    (hPositive : model.schema.Positive)
    (hKey : request.key = another.key)
    (hTuples :
      visibleTuples tables request ⊆
        visibleTuples others another)
    (hAllowed :
      (first.checkWithin tables bounds request).decision =
        .allowed) :
    (second.checkWithin others limits another).decision ≠
      .denied := by
  intro hDenied
  have hTrue :
      (first.checkWithin tables bounds request).decision =
        .ofAnswer true := hAllowed
  have hFalse :
      (second.checkWithin others limits another).decision =
        .ofAnswer false := hDenied
  rcases understood_of_allowed hAllowed with ⟨question, hAsked⟩
  have hHolds :=
    (mem_flat_iff hFirst hPositive hAsked.user hAsked.object
      hTrue).mpr rfl
  have hFails :=
    mem_flat_iff hSecond hPositive (hKey ▸ hAsked.user)
      (hKey ▸ hAsked.object) hFalse
  have hExtends :
      (facts model others another question.user).Extends
        (facts model tables request question.user)
        ((facts model others another question.user).flat
          hPositive).fixpoint := by
    refine Facts.extends_of_subset ?_ ?_ hTuples _
    · rfl
    · rfl
  rw [← hKey] at hFails
  exact Bool.false_ne_true
    (hFails.mp (hExtends.fixpoint_subset hPositive hHolds))

end Engine

------------------------------------------------------------
-- An Example
------------------------------------------------------------

/-
  Documents in folders whose viewers are teams. Each of two
  teams has all members of the other one.
-/
namespace Teams

open Documents (readme alice wide)

def source : Bytes :=
  utf8 "model
  schema 1.1
type doc
  relations
    define parent: [folder]
    define viewer: [user:*] or viewer from parent
type folder
  relations
    define viewer: [team#member]
type team
  relations
    define member: [user, team#member]
type user
"

def schema : Schema :=
  { version := utf8 "1.1"
    types :=
      [{ name := utf8 "doc"
         relations :=
           [{ name := utf8 "parent"
              rule := .direct [.plain (utf8 "folder")] },
            { name := utf8 "viewer"
              rule := .union
                [.direct [.wildcard (utf8 "user")],
                  .tupleToUserset (utf8 "parent")
                    (utf8 "viewer")] }] },
       { name := utf8 "folder"
         relations :=
           [{ name := utf8 "viewer"
              rule := .direct
                [.userset (utf8 "team") (utf8 "member")] }] },
       { name := utf8 "team"
         relations :=
           [{ name := utf8 "member"
              rule := .direct
                [.plain (utf8 "user"),
                  .userset (utf8 "team") (utf8 "member")] }] },
       { name := utf8 "user", relations := [] }] }

def model : Model :=
  { Documents.model with schema := schema }

def engine : Engine :=
  { model := some model }

def plans : ObjectRef :=
  ⟨utf8 "folder", utf8 "plans"⟩

def dev : ObjectRef :=
  ⟨utf8 "team", utf8 "dev"⟩

def core : ObjectRef :=
  ⟨utf8 "team", utf8 "core"⟩

/- The members of a team. -/
def members (team : ObjectRef) : UserRef :=
  { object := team, relation := some (utf8 "member") }

/- Alice is in the core team, which views the folder. -/
def grants : List TupleKey.Parts :=
  [⟨{ object := plans }, utf8 "parent", readme⟩,
    ⟨members dev, utf8 "viewer", plans⟩,
    ⟨members core, utf8 "member", dev⟩,
    ⟨alice, utf8 "member", core⟩]

/- The core team has the members of the other team as well. -/
def tables : Tables :=
  { tuples :=
      (⟨members dev, utf8 "member", core⟩ :: grants).map
        fun parts =>
          { id := parts.key.user ++ parts.key.object
            parts := parts
            created := 1
            deleted := none
            time := 0 }
    last := 1 }

/- Whether Alice may view the document. -/
def request : Request :=
  { key := ⟨alice.text, utf8 "viewer", readme.text⟩ }

/- The same without a store, but with the grants. -/
def contextual : Request :=
  { request with contextual := grants.map TupleKey.Parts.key }

theorem source_compiled :
    (compile source).schema? = some schema := by
  refine schema?_of_outline ?_ ⟨?_, ?_⟩ <;> decide +kernel

theorem schema_positive : schema.Positive := by
  decide +kernel

/- The grants are seen in the store as well. -/
theorem grants_visible :
    Engine.visibleTuples {} contextual ⊆
      Engine.visibleTuples tables request := by
  have hTxid : Engine.snapshot tables request = .ok 1 := rfl
  have hChecked : ∀ parts ∈ grants,
      parts.key.check = .ok parts := by
    decide +kernel
  intro parts hParts
  rcases hParts with ⟨_, _, _, hNone, _⟩ | ⟨key, hKey, hCheck⟩
  · exact absurd hNone List.not_mem_nil
  · rcases List.mem_map.mp hKey with ⟨grant, hGrant, rfl⟩
    cases (hChecked grant hGrant).symm.trans hCheck
    refine .inl ⟨1, hTxid, _, List.mem_map_of_mem
      (List.mem_cons_of_mem _ hGrant), ?_, rfl⟩
    exact ⟨Int.le_refl 1, nofun⟩

/- That the teams have each other's members denies nothing. -/
theorem cycle_denies_nothing :
    (engine.checkWithin {} wide contextual).decision =
        .allowed ∧
      (engine.checkWithin tables wide request).decision ≠
        .denied := by
  have hModel : engine.model = some model := rfl
  have hKey : contextual.key = request.key := rfl
  have hAllowed :
      (engine.checkWithin {} wide contextual).decision =
        .allowed := by
    decide +kernel
  exact ⟨hAllowed,
    Engine.not_denied_of_subset hModel hModel schema_positive
      hKey grants_visible hAllowed⟩

end Teams

end Rebac
