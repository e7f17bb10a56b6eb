import Rebac.Proofs.Check.Refinement
import Rebac.Proofs.Check.Strata

/-
  This file proves what the evaluation of a rule depends on.

  The evaluation of a rule asks for nothing but the nodes
  that the rule refers to. Where these keep something of the
  meter, so does the rule, and where these are interrupted
  for certain reasons only, so is the rule.

  Key definitions include:
    * `Evaluation.followedBy`
    * `Evaluation.Terms`
    * `Evaluation.Terms.Agree`
    * `Scene.facts`
    * `Scene.Asks`

  Key theorems include:
    * `Evaluation.Terms.Agree.followedBy`
    * `Scene.agree_evaluateRule`
    * `Scene.evaluateRule_congr`
-/

namespace Rebac

namespace Evaluation

------------------------------------------------------------
-- Sequences
------------------------------------------------------------

/- Goes on according to what an evaluation comes to. -/
def followedBy
    (evaluation : Evaluation)
    (next : Except Interruption Bool → Evaluation) :
    Evaluation :=
  fun meter => next (evaluation meter).1 (evaluation meter).2

theorem anyOf_cons
    (earlier : Option Interruption)
    (part : Evaluation)
    (others : List Evaluation) :
    anyOf earlier (part :: others) =
      part.followedBy fun outcome =>
        match outcome with
        | .ok true => always true
        | .ok false => anyOf earlier others
        | .error interruption =>
            anyOf (first earlier interruption) others := by
  funext meter
  unfold anyOf followedBy
  rcases part meter with ⟨_ | _ | _, after⟩ <;> rfl

theorem allOf_cons
    (earlier : Option Interruption)
    (part : Evaluation)
    (others : List Evaluation) :
    allOf earlier (part :: others) =
      part.followedBy fun outcome =>
        match outcome with
        | .ok false => always false
        | .ok true => allOf earlier others
        | .error interruption =>
            allOf (first earlier interruption) others := by
  funext meter
  unfold allOf followedBy
  rcases part meter with ⟨_ | _ | _, after⟩ <;> rfl

/- Each tuple is counted before its user is looked at. -/
theorem anyTuple_cons
    (bounds : Bounds)
    (condition : UserRef → Evaluation)
    (earlier : Option Interruption)
    (user : UserRef)
    (others : List UserRef) :
    anyTuple bounds condition earlier (user :: others) =
      fun meter =>
        let counted :=
          { meter with expansions := meter.expansions + 1 }
        if bounds.maxExpansions < counted.expansions then
          (.error .maxExpansions, counted)
        else
          (condition user).followedBy
            (fun outcome =>
              match outcome with
              | .ok true => always true
              | .ok false =>
                  anyTuple bounds condition earlier others
              | .error interruption =>
                  anyTuple bounds condition
                    (first earlier interruption) others)
            counted := by
  funext meter
  unfold anyTuple Meter.charge followedBy
  dsimp only
  by_cases hMany :
      bounds.maxExpansions < meter.expansions + 1
  · rw [if_pos hMany, if_pos hMany]
  · rw [if_neg hMany, if_neg hMany]
    dsimp only
    rcases condition user _ with ⟨_ | _ | _, after⟩ <;> rfl

theorem butNot_eq (base subtract : Evaluation) :
    butNot base subtract =
      base.followedBy fun outcome =>
        match outcome with
        | .ok false => always false
        | .ok true =>
            subtract.followedBy fun subtracted =>
              match subtracted with
              | .ok subtracted => always (!subtracted)
              | .error interruption => interrupted interruption
        | .error interruption =>
            subtract.followedBy fun subtracted =>
              match subtracted with
              | .ok true => always false
              | _ => interrupted interruption := by
  funext meter
  unfold butNot followedBy
  rcases base meter with ⟨_ | _ | _, middle⟩ <;> dsimp only
  · rcases subtract middle with ⟨_ | _ | _, after⟩ <;> rfl
  · rfl
  · rcases subtract middle with ⟨_ | _ | _, after⟩ <;> rfl

------------------------------------------------------------
-- Terms
------------------------------------------------------------

/-
  What evaluations keep of a meter, and what may interrupt
  them. To count a tuple does not matter, and evaluations may
  always be interrupted because of tuples.
-/
structure Terms where
  Kept : Meter → Prop
  Excused : Interruption → Prop
  charged : ∀ {meter : Meter}, Kept meter →
    Kept { meter with expansions := meter.expansions + 1 }
  storage : Excused .storage
  expansions : Excused .maxExpansions

namespace Terms

/- No terms at all. -/
def none : Terms where
  Kept _ := True
  Excused _ := True
  charged _ := trivial
  storage := trivial
  expansions := trivial

/- An outcome that is no interruption without an excuse. -/
def Accepts
    (terms : Terms)
    (outcome : Except Interruption Bool) : Prop :=
  ∀ interruption, outcome = .error interruption →
    terms.Excused interruption

/-
  Two evaluations agree if they come to the same, keep what
  is to be kept of the meter, and are only interrupted where
  there is an excuse.
-/
def Agree (terms : Terms) (here there : Evaluation) : Prop :=
  ∀ meter, terms.Kept meter →
    here meter = there meter ∧
      terms.Kept (here meter).2 ∧
        terms.Accepts (here meter).1

theorem eq_of_agree
    {here there : Evaluation}
    (hAgree : none.Agree here there) :
    here = there :=
  funext fun meter => (hAgree meter trivial).1

variable {terms : Terms}

theorem agree_always (answer : Bool) :
    terms.Agree (always answer) (always answer) :=
  fun _ hKept => ⟨rfl, hKept, nofun⟩

theorem agree_interrupted
    {interruption : Interruption}
    (hExcused : terms.Excused interruption) :
    terms.Agree (interrupted interruption)
      (interrupted interruption) := by
  intro meter hKept
  refine ⟨rfl, hKept, ?_⟩
  intro found hFound
  cases hFound
  exact hExcused

theorem Agree.followedBy
    {here there : Evaluation}
    {next other : Except Interruption Bool → Evaluation}
    (hAgree : terms.Agree here there)
    (hNext : ∀ outcome, terms.Accepts outcome →
      terms.Agree (next outcome) (other outcome)) :
    terms.Agree (here.followedBy next)
      (there.followedBy other) := by
  intro meter hKept
  rcases hAgree meter hKept with ⟨hSame, hAfter, hAccepts⟩
  unfold Evaluation.followedBy
  rw [← hSame]
  exact hNext _ hAccepts _ hAfter

------------------------------------------------------------
-- Parts
------------------------------------------------------------

/- An interruption before, if there was one, has its excuse. -/
def Pardons
    (terms : Terms)
    (earlier : Option Interruption) : Prop :=
  ∀ interruption ∈ earlier, terms.Excused interruption

theorem pardons_none : terms.Pardons Option.none := by
  intro interruption hNone
  cases hNone

variable {earlier : Option Interruption}

theorem Pardons.first
    {interruption : Interruption}
    (hEarlier : terms.Pardons earlier)
    (hExcused : terms.Excused interruption) :
    terms.Pardons (first earlier interruption) := by
  intro found hFound
  cases earlier with
  | none =>
      cases hFound
      exact hExcused
  | some other =>
      cases hFound
      exact hEarlier other rfl

theorem agree_settle
    (hEarlier : terms.Pardons earlier)
    (answer : Bool) :
    terms.Agree (fun meter => (settle earlier answer, meter))
      (fun meter => (settle earlier answer, meter)) := by
  cases earlier with
  | none => exact agree_always answer
  | some interruption =>
      exact agree_interrupted (hEarlier interruption rfl)

section Parts

variable {Item : Type}
variable {items : List Item}
variable {here there : Item → Evaluation}

theorem agree_anyOf
    (hItems : ∀ item ∈ items,
      terms.Agree (here item) (there item))
    (hEarlier : terms.Pardons earlier) :
    terms.Agree (anyOf earlier (items.map here))
      (anyOf earlier (items.map there)) := by
  induction items generalizing earlier with
  | nil => exact agree_settle hEarlier false
  | cons item others ih =>
      rcases List.forall_mem_cons.mp hItems with
        ⟨hItem, hOthers⟩
      rw [List.map_cons, List.map_cons, anyOf_cons, anyOf_cons]
      refine hItem.followedBy ?_
      rintro (interruption | _ | _) hAccepts
      · exact ih hOthers (hEarlier.first (hAccepts _ rfl))
      · exact ih hOthers hEarlier
      · exact agree_always true

theorem agree_allOf
    (hItems : ∀ item ∈ items,
      terms.Agree (here item) (there item))
    (hEarlier : terms.Pardons earlier) :
    terms.Agree (allOf earlier (items.map here))
      (allOf earlier (items.map there)) := by
  induction items generalizing earlier with
  | nil => exact agree_settle hEarlier true
  | cons item others ih =>
      rcases List.forall_mem_cons.mp hItems with
        ⟨hItem, hOthers⟩
      rw [List.map_cons, List.map_cons, allOf_cons, allOf_cons]
      refine hItem.followedBy ?_
      rintro (interruption | _ | _) hAccepts
      · exact ih hOthers (hEarlier.first (hAccepts _ rfl))
      · exact agree_always false
      · exact ih hOthers hEarlier

end Parts

theorem agree_butNot
    {base subtract another otherwise : Evaluation}
    (hBase : terms.Agree base another)
    (hSubtract : terms.Agree subtract otherwise) :
    terms.Agree (butNot base subtract)
      (butNot another otherwise) := by
  rw [butNot_eq, butNot_eq]
  refine hBase.followedBy ?_
  rintro (interruption | _ | _) hAccepts
  · refine hSubtract.followedBy ?_
    rintro (_ | _ | _) _
    · exact agree_interrupted (hAccepts _ rfl)
    · exact agree_interrupted (hAccepts _ rfl)
    · exact agree_always false
  · exact agree_always false
  · refine hSubtract.followedBy ?_
    rintro (interruption | subtracted) hSubtracted
    · exact agree_interrupted (hSubtracted _ rfl)
    · exact agree_always (!subtracted)

theorem agree_anyTuple
    {bounds : Bounds}
    {users : List UserRef}
    {here there : UserRef → Evaluation}
    (hUsers : ∀ user ∈ users,
      terms.Agree (here user) (there user))
    (hEarlier : terms.Pardons earlier) :
    terms.Agree (anyTuple bounds here earlier users)
      (anyTuple bounds there earlier users) := by
  induction users generalizing earlier with
  | nil => exact agree_settle hEarlier false
  | cons user others ih =>
      rcases List.forall_mem_cons.mp hUsers with
        ⟨hUser, hOthers⟩
      rw [anyTuple_cons, anyTuple_cons]
      intro meter hKept
      have hCounted := terms.charged hKept
      dsimp only
      by_cases hMany :
          bounds.maxExpansions < meter.expansions + 1
      · rw [if_pos hMany, if_pos hMany]
        refine ⟨rfl, hCounted, ?_⟩
        intro interruption hFound
        cases hFound
        exact terms.expansions
      · rw [if_neg hMany, if_neg hMany]
        refine hUser.followedBy ?_ _ hCounted
        rintro (interruption | _ | _) hAccepts
        · exact ih hOthers (hEarlier.first (hAccepts _ rfl))
        · exact ih hOthers hEarlier
        · exact agree_always true

end Terms

end Evaluation

------------------------------------------------------------
-- Rules
------------------------------------------------------------

namespace Scene

open Evaluation

/- The facts that a scene shows. -/
def facts (scene : Scene) : Facts :=
  { schema := scene.schema
    tuples :=
      { parts |
        ∃ users,
          scene.users parts.relation parts.object =
              some users ∧
            parts.user ∈ users }
    user := scene.user }

theorem reflects_facts (scene : Scene) :
    scene.Reflects scene.facts where
  schema := rfl
  user := rfl
  mem_users {relation object users} hUsers user := by
    constructor
    · intro hUser
      exact ⟨users, hUsers, hUser⟩
    · intro hUser
      rcases hUser with ⟨found, hFound, hMem⟩
      rw [hUsers] at hFound
      cases hFound
      exact hMem

/- The nodes that a rule of a node may ask for. -/
def Asks
    (scene : Scene)
    (node : Node)
    (rule : Rule)
    (other : Node) : Prop :=
  ∃ subtracted, scene.facts.Refers node rule subtracted other

variable {scene : Scene}
variable {terms : Terms}
variable {node : Node}
variable {ask another : Node → Evaluation}

theorem agree_overTuples
    {relation : Bytes}
    {object : ObjectRef}
    {here there : UserRef → Evaluation}
    (hUsers : ∀ user ∈ scene.facts.users relation object,
      terms.Agree (here user) (there user)) :
    terms.Agree (scene.overTuples relation object here)
      (scene.overTuples relation object there) := by
  unfold overTuples
  split
  · exact Terms.agree_interrupted terms.storage
  · next users hFound =>
      refine Terms.agree_anyTuple ?_ Terms.pardons_none
      intro user hUser
      exact hUsers user
        ((scene.reflects_facts.mem_users hFound user).mp hUser)

/- Only the group of an admitted tuple is asked for. -/
theorem agree_direct
    {allowed : List TypeSpec}
    {assigned : UserRef}
    (hGroup : Admits allowed assigned.spec →
      ∀ group, assigned.group? = some group →
        terms.Agree (ask group) (another group)) :
    terms.Agree (scene.direct ask allowed assigned)
      (scene.direct another allowed assigned) := by
  rw [direct_eq, direct_eq]
  by_cases hAdmits : Admits allowed assigned.spec
  · rw [if_neg (not_not.mpr hAdmits),
      if_neg (not_not.mpr hAdmits)]
    by_cases hCovers : assigned.Covers scene.user
    · rw [if_pos hCovers, if_pos hCovers]
      exact Terms.agree_always true
    · rw [if_neg hCovers, if_neg hCovers]
      cases hFound : assigned.group? with
      | none => exact Terms.agree_always false
      | some group => exact hGroup hAdmits group hFound
  · rw [if_pos hAdmits, if_pos hAdmits]
    exact Terms.agree_always false

theorem agree_tupleToUserset
    {computed : Bytes}
    {assigned : UserRef}
    (hTarget : assigned.object.id ≠ wildcardId →
      terms.Agree (ask ⟨computed, assigned.object⟩)
        (another ⟨computed, assigned.object⟩)) :
    terms.Agree (tupleToUserset ask computed assigned)
      (tupleToUserset another computed assigned) := by
  unfold tupleToUserset
  by_cases hWildcard : assigned.object.id = wildcardId
  · rw [if_pos hWildcard, if_pos hWildcard]
    exact Terms.agree_always false
  · rw [if_neg hWildcard, if_neg hWildcard]
    exact hTarget hWildcard

/-
  A rule keeps to the terms that the nodes it asks for keep
  to, and comes to the same where these do. The induction is
  on the rule.
-/
theorem agree_evaluateRule
    {rule : Rule}
    (hAsk : ∀ other, scene.Asks node rule other →
      terms.Agree (ask other) (another other)) :
    terms.Agree (scene.evaluateRule ask node rule)
      (scene.evaluateRule another node rule) := by
  induction rule using Rule.induct with
  | direct allowed =>
      rw [evaluateRule, evaluateRule]
      apply agree_overTuples
      intro assigned hAssigned
      apply agree_direct
      intro hAdmits group hGroup
      exact hAsk group
        ⟨false, .group ⟨assigned, hAssigned, hAdmits, hGroup⟩⟩
  | computed relation =>
      rw [evaluateRule, evaluateRule]
      exact hAsk _ ⟨false, .computed⟩
  | tupleToUserset tupleset computed =>
      rw [evaluateRule, evaluateRule]
      apply agree_overTuples
      intro assigned hAssigned
      apply agree_tupleToUserset
      intro hWildcard
      exact hAsk _
        ⟨false, .target ⟨assigned, hAssigned, hWildcard, rfl⟩⟩
  | union children ih =>
      rw [evaluateRule, evaluateRule, evaluateRules_eq_map,
        evaluateRules_eq_map]
      refine Terms.agree_anyOf ?_ Terms.pardons_none
      intro child hChild
      apply ih child hChild
      intro other hOther
      rcases hOther with ⟨subtracted, hRefers⟩
      exact hAsk other ⟨subtracted, .union hChild hRefers⟩
  | intersection children ih =>
      rw [evaluateRule, evaluateRule, evaluateRules_eq_map,
        evaluateRules_eq_map]
      refine Terms.agree_allOf ?_ Terms.pardons_none
      intro child hChild
      apply ih child hChild
      intro other hOther
      rcases hOther with ⟨subtracted, hRefers⟩
      exact hAsk other
        ⟨subtracted, .intersection hChild hRefers⟩
  | exclusion base subtract ihBase ihSubtract =>
      rw [evaluateRule, evaluateRule]
      apply Terms.agree_butNot
      · apply ihBase
        intro other hOther
        rcases hOther with ⟨subtracted, hRefers⟩
        exact hAsk other ⟨subtracted, .base hRefers⟩
      · apply ihSubtract
        intro other hOther
        rcases hOther with ⟨subtracted, hRefers⟩
        exact hAsk other ⟨true, .subtract hRefers⟩

/- What a rule does not ask for does not matter to it. -/
theorem evaluateRule_congr
    {rule : Rule}
    (hAsk : ∀ other, scene.Asks node rule other →
      ask other = another other) :
    scene.evaluateRule ask node rule =
      scene.evaluateRule another node rule := by
  apply Terms.eq_of_agree
  apply agree_evaluateRule
  intro other hOther
  rw [hAsk other hOther]
  exact fun _ _ => ⟨rfl, trivial, fun _ _ => trivial⟩

end Scene

end Rebac
