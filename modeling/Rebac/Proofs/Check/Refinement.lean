import Mathlib.Data.List.Basic
import Rebac.Proofs.Check.Answers
import Rebac.Proofs.Model.Schema

/-
  This file proves that an evaluation that ends with an answer
  ends with the one that can be derived.

  The limits, the clock and the order of the tuples decide
  whether an evaluation is interrupted. They do not appear in
  a derivation, so they do not matter to the answer.

  Key definitions include:
    * `Evaluation.Yields`
    * `Scene.Reflects`

  Key theorems include:
    * `Scene.Reflects.answers_evaluateRule`
    * `Scene.Reflects.answers_evaluate`
-/

------------------------------------------------------------
-- Combinations
------------------------------------------------------------

namespace Rebac

namespace Evaluation

/- An evaluation that ends with an answer from some meter. -/
def Yields (evaluation : Evaluation) (answer : Bool) : Prop :=
  ∃ meter, (evaluation meter).1 = .ok answer

@[simp] theorem always_yields_iff
    {given answer : Bool} :
    (always given).Yields answer ↔ given = answer := by
  have : Nonempty Meter := ⟨{}⟩
  simp [Yields, always]

@[simp] theorem not_interrupted_yields
    {interruption : Interruption}
    {answer : Bool} :
    ¬ (interrupted interruption).Yields answer := by
  simp [Yields, interrupted]

@[simp] theorem settle_eq_ok_iff
    {earlier : Option Interruption}
    {given answer : Bool} :
    settle earlier given = .ok answer ↔
      earlier = none ∧ given = answer := by
  cases earlier <;> simp [settle]

/- A part that was interrupted leaves an interruption. -/
theorem first_ne_none
    (earlier : Option Interruption)
    (interruption : Interruption) :
    first earlier interruption ≠ none := by
  simp [first]

/- What holds in a list of parts holds in one of them. -/
theorem yields_true_of_anyOf
    {parts : List Evaluation}
    {earlier : Option Interruption}
    {meter : Meter}
    (hAny : (anyOf earlier parts meter).1 = .ok true) :
    ∃ part ∈ parts, part.Yields true := by
  induction parts generalizing earlier meter with
  | nil => simp [anyOf] at hAny
  | cons part others ih =>
      rw [anyOf] at hAny
      split at hAny
      · next used hPart =>
          exact ⟨part, List.mem_cons_self, meter, by rw [hPart]⟩
      · exact List.exists_mem_cons_of_exists (ih hAny)
      · exact List.exists_mem_cons_of_exists (ih hAny)

/-
  What fails in a list of parts fails in all of them, and
  none of them was interrupted.
-/
theorem yields_false_of_anyOf
    {parts : List Evaluation}
    {earlier : Option Interruption}
    {meter : Meter}
    (hAny : (anyOf earlier parts meter).1 = .ok false) :
    earlier = none ∧ ∀ part ∈ parts, part.Yields false := by
  induction parts generalizing earlier meter with
  | nil => simpa [anyOf] using hAny
  | cons part others ih =>
      rw [anyOf] at hAny
      split at hAny
      · cases hAny
      · next used hPart =>
          rcases ih hAny with ⟨hEarlier, hOthers⟩
          refine ⟨hEarlier, ?_⟩
          exact List.forall_mem_cons.mpr
            ⟨⟨meter, by rw [hPart]⟩, hOthers⟩
      · exact absurd (ih hAny).1 (first_ne_none _ _)

/-
  What holds of all parts holds of each of them, and none of
  them was interrupted.
-/
theorem yields_true_of_allOf
    {parts : List Evaluation}
    {earlier : Option Interruption}
    {meter : Meter}
    (hAll : (allOf earlier parts meter).1 = .ok true) :
    earlier = none ∧ ∀ part ∈ parts, part.Yields true := by
  induction parts generalizing earlier meter with
  | nil => simpa [allOf] using hAll
  | cons part others ih =>
      rw [allOf] at hAll
      split at hAll
      · cases hAll
      · next used hPart =>
          rcases ih hAll with ⟨hEarlier, hOthers⟩
          refine ⟨hEarlier, ?_⟩
          exact List.forall_mem_cons.mpr
            ⟨⟨meter, by rw [hPart]⟩, hOthers⟩
      · exact absurd (ih hAll).1 (first_ne_none _ _)

/- What fails for all parts together fails for one of them. -/
theorem yields_false_of_allOf
    {parts : List Evaluation}
    {earlier : Option Interruption}
    {meter : Meter}
    (hAll : (allOf earlier parts meter).1 = .ok false) :
    ∃ part ∈ parts, part.Yields false := by
  induction parts generalizing earlier meter with
  | nil => simp [allOf] at hAll
  | cons part others ih =>
      rw [allOf] at hAll
      split at hAll
      · next used hPart =>
          exact ⟨part, List.mem_cons_self, meter, by rw [hPart]⟩
      · exact List.exists_mem_cons_of_exists (ih hAll)
      · exact List.exists_mem_cons_of_exists (ih hAll)

/- An exclusion holds only if both of its parts were decided. -/
theorem yields_of_butNot_true
    {base subtract : Evaluation}
    {meter : Meter}
    (hBoth : (butNot base subtract meter).1 = .ok true) :
    base.Yields true ∧ subtract.Yields false := by
  rw [butNot] at hBoth
  split at hBoth
  · cases hBoth
  · next outcome used hNotFalse hBase =>
      split at hBoth
      · cases hBoth
      · cases hBoth
      · cases hBoth
      · next answer _ hSubtract =>
          cases answer with
          | false => exact (hNotFalse rfl).elim
          | true =>
              exact ⟨⟨meter, by rw [hBase]⟩,
                ⟨used, by rw [hSubtract]⟩⟩

/- An exclusion fails only by one of its parts. -/
theorem yields_of_butNot_false
    {base subtract : Evaluation}
    {meter : Meter}
    (hBoth : (butNot base subtract meter).1 = .ok false) :
    base.Yields false ∨ subtract.Yields true := by
  rw [butNot] at hBoth
  split at hBoth
  · next used hBase =>
      exact Or.inl ⟨meter, by rw [hBase]⟩
  · next outcome used hNotFalse hBase =>
      split at hBoth
      · next hSubtract =>
          exact Or.inr ⟨used, by rw [hSubtract]⟩
      · cases hBoth
      · cases hBoth
      · cases hBoth

/- A condition that some tuple fulfils. -/
theorem yields_true_of_anyTuple
    {bounds : Bounds}
    {condition : UserRef → Evaluation}
    {users : List UserRef}
    {earlier : Option Interruption}
    {meter : Meter}
    (hAny :
      (anyTuple bounds condition earlier users meter).1 =
        .ok true) :
    ∃ user ∈ users, (condition user).Yields true := by
  induction users generalizing earlier meter with
  | nil => simp [anyTuple] at hAny
  | cons user others ih =>
      rw [anyTuple] at hAny
      split at hAny
      · cases hAny
      · next charged _ =>
          split at hAny
          · next hUser =>
              exact ⟨user, List.mem_cons_self, charged, by
                rw [hUser]⟩
          · exact List.exists_mem_cons_of_exists (ih hAny)
          · exact List.exists_mem_cons_of_exists (ih hAny)

/- A condition that no tuple fulfils, without interruption. -/
theorem yields_false_of_anyTuple
    {bounds : Bounds}
    {condition : UserRef → Evaluation}
    {users : List UserRef}
    {earlier : Option Interruption}
    {meter : Meter}
    (hAny :
      (anyTuple bounds condition earlier users meter).1 =
        .ok false) :
    earlier = none ∧
      ∀ user ∈ users, (condition user).Yields false := by
  induction users generalizing earlier meter with
  | nil => simpa [anyTuple] using hAny
  | cons user others ih =>
      rw [anyTuple] at hAny
      split at hAny
      · cases hAny
      · next charged _ =>
          split at hAny
          · cases hAny
          · next hUser =>
              rcases ih hAny with ⟨hEarlier, hOthers⟩
              refine ⟨hEarlier, ?_⟩
              exact List.forall_mem_cons.mpr
                ⟨⟨charged, by rw [hUser]⟩, hOthers⟩
          · exact absurd (ih hAny).1 (first_ne_none _ _)

end Evaluation

------------------------------------------------------------
-- Rules
------------------------------------------------------------

namespace Scene

open Evaluation

/-
  A scene shows facts if it has their schema and their user,
  and lists the users of their tuples wherever they can be
  read, in any order and any number of times.
-/
structure Reflects (scene : Scene) (facts : Facts) : Prop where
  schema : scene.schema = facts.schema
  user : scene.user = facts.user
  mem_users {relation : Bytes} {object : ObjectRef}
    {users : List UserRef}
    (hUsers : scene.users relation object = some users)
    (user : UserRef) :
    user ∈ users ↔ user ∈ facts.users relation object

variable {scene : Scene} {facts : Facts}

/- A condition that is fulfilled over the visible tuples. -/
theorem Reflects.yields_true_of_overTuples
    (hScene : scene.Reflects facts)
    {relation : Bytes}
    {object : ObjectRef}
    {condition : UserRef → Evaluation}
    (hOver :
      (scene.overTuples relation object condition).Yields
        true) :
    ∃ user ∈ facts.users relation object,
      (condition user).Yields true := by
  rw [overTuples] at hOver
  split at hOver
  · exact absurd hOver not_interrupted_yields
  · next users hUsers =>
      rcases hOver with ⟨meter, hOver⟩
      rcases yields_true_of_anyTuple hOver with
        ⟨user, hUser, hYields⟩
      exact ⟨user, (hScene.mem_users hUsers user).mp hUser,
        hYields⟩

/- A condition that fails over the visible tuples. -/
theorem Reflects.yields_false_of_overTuples
    (hScene : scene.Reflects facts)
    {relation : Bytes}
    {object : ObjectRef}
    {condition : UserRef → Evaluation}
    (hOver :
      (scene.overTuples relation object condition).Yields
        false) :
    ∀ user ∈ facts.users relation object,
      (condition user).Yields false := by
  rw [overTuples] at hOver
  split at hOver
  · exact absurd hOver not_interrupted_yields
  · next users hUsers =>
      rcases hOver with ⟨meter, hOver⟩
      intro user hUser
      exact (yields_false_of_anyTuple hOver).2 user
        ((hScene.mem_users hUsers user).mpr hUser)

/-
  A tuple that is not admitted does not count. Otherwise it
  decides at once if it stands for the user, and leaves the
  answer to its group if not.
-/
theorem direct_eq
    (evaluate : Node → Evaluation)
    (allowed : List TypeSpec)
    (assigned : UserRef) :
    scene.direct evaluate allowed assigned =
      if ¬ Admits allowed assigned.spec then
        always false
      else if assigned.Covers scene.user then
        always true
      else
        match assigned.group? with
        | none => always false
        | some group => evaluate group := by
  rcases assigned with ⟨object, _ | relation⟩
  · by_cases hWildcard : object.id = wildcardId
    · by_cases hAdmits : Admits allowed (.wildcard object.type)
      · by_cases hPlain : scene.user.relation = none <;>
        by_cases hType : scene.user.object.type = object.type <;>
        by_cases hSame : scene.user = ⟨object, none⟩ <;>
          simp_all [direct, UserRef.spec, UserRef.Covers,
            UserRef.IsWildcard, UserRef.group?]
      · simp [direct, UserRef.spec, hWildcard, hAdmits]
    · by_cases hAdmits : Admits allowed (.plain object.type) <;>
      by_cases hSame : scene.user = ⟨object, none⟩ <;>
        simp [direct, UserRef.spec, UserRef.Covers,
          UserRef.IsWildcard, UserRef.group?, hWildcard,
          hAdmits, hSame]
  · simp [direct, UserRef.spec, UserRef.Covers,
      UserRef.IsWildcard, UserRef.group?]

/- A tuple that makes a direct relation hold is admitted. -/
theorem admits_of_direct_yields_true
    {ask : Node → Evaluation}
    {allowed : List TypeSpec}
    {assigned : UserRef}
    (hDirect : (scene.direct ask allowed assigned).Yields true) :
    Admits allowed assigned.spec ∧
      (assigned.Covers scene.user ∨
        ∃ group, assigned.group? = some group ∧
          (ask group).Yields true) := by
  rw [direct_eq] at hDirect
  split at hDirect
  · simp at hDirect
  · next hAdmits =>
      refine ⟨not_not.mp hAdmits, ?_⟩
      split at hDirect
      · next hCovers => exact Or.inl hCovers
      · split at hDirect
        · simp at hDirect
        · next group hGroup =>
            exact Or.inr ⟨group, hGroup, hDirect⟩

/-
  An admitted tuple that does not make a direct relation hold
  does not stand for the user, nor is the user in its group.
-/
theorem not_covers_of_direct_yields_false
    {ask : Node → Evaluation}
    {allowed : List TypeSpec}
    {assigned : UserRef}
    (hDirect : (scene.direct ask allowed assigned).Yields false)
    (hAdmits : Admits allowed assigned.spec) :
    ¬ assigned.Covers scene.user ∧
      ∀ group, assigned.group? = some group →
        (ask group).Yields false := by
  rw [direct_eq, if_neg (not_not.mpr hAdmits)] at hDirect
  split at hDirect
  · simp at hDirect
  · next hCovers =>
      refine ⟨hCovers, ?_⟩
      intro group hGroup
      simpa [hGroup] using hDirect

section Refinement

variable {path : List Node}
variable {ask : Node → Evaluation}
variable {node : Node}

/- The tuples on a node decide a direct rule. -/
theorem Reflects.answers_direct
    (hScene : scene.Reflects facts)
    (hAsk : ∀ (other : Node) (answer : Bool),
      (ask other).Yields answer →
        facts.Answers (.relation path other) answer)
    {allowed : List TypeSpec}
    {answer : Bool}
    (hDirect :
      (scene.overTuples node.relation node.object
        (scene.direct ask allowed)).Yields answer) :
    facts.Answers (.rule path node (.direct allowed)) answer := by
  cases answer with
  | true =>
      rcases hScene.yields_true_of_overTuples hDirect with
        ⟨assigned, hAssigned, hYields⟩
      rcases admits_of_direct_yields_true hYields with
        ⟨hAdmits, hCovers | ⟨group, hGroup, hMember⟩⟩
      · rw [hScene.user] at hCovers
        exact .granted ⟨assigned, hAssigned, hAdmits, hCovers⟩
      · exact .member ⟨assigned, hAssigned, hAdmits, hGroup⟩
          (hAsk group true hMember)
  | false =>
      have hNone :=
        hScene.yields_false_of_overTuples hDirect
      apply Facts.Answers.ungranted
      · rintro ⟨assigned, hAssigned, hAdmits, hCovers⟩
        rw [← hScene.user] at hCovers
        exact (not_covers_of_direct_yields_false
          (hNone assigned hAssigned) hAdmits).1 hCovers
      · rintro group ⟨assigned, hAssigned, hAdmits, hGroup⟩
        exact hAsk group false
          ((not_covers_of_direct_yields_false
            (hNone assigned hAssigned) hAdmits).2 group hGroup)

/- The tuples of a tupleset decide a rule that follows them. -/
theorem Reflects.answers_tupleToUserset
    (hScene : scene.Reflects facts)
    (hAsk : ∀ (other : Node) (answer : Bool),
      (ask other).Yields answer →
        facts.Answers (.relation path other) answer)
    {tupleset computed : Bytes}
    {answer : Bool}
    (hOver :
      (scene.overTuples tupleset node.object
        (tupleToUserset ask computed)).Yields answer) :
    facts.Answers
      (.rule path node (.tupleToUserset tupleset computed))
      answer := by
  cases answer with
  | true =>
      rcases hScene.yields_true_of_overTuples hOver with
        ⟨assigned, hAssigned, hYields⟩
      rw [tupleToUserset] at hYields
      split at hYields
      · simp at hYields
      · next hPlain =>
          exact .related ⟨assigned, hAssigned, hPlain, rfl⟩
            (hAsk _ true hYields)
  | false =>
      have hNone := hScene.yields_false_of_overTuples hOver
      apply Facts.Answers.unrelated
      rintro target ⟨assigned, hAssigned, hPlain, rfl⟩
      have hYields := hNone assigned hAssigned
      rw [tupleToUserset, if_neg hPlain] at hYields
      exact hAsk _ false hYields

/- The evaluations of several rules, one by one. -/
theorem evaluateRules_eq_map (rules : List Rule) :
    evaluateRules scene ask node rules =
      rules.map (evaluateRule scene ask node) := by
  induction rules with
  | nil => rw [evaluateRules, List.map_nil]
  | cons child others ih =>
      rw [evaluateRules, ih, List.map_cons]

/-
  The evaluation of a rule ends with a derived answer if the
  evaluations of the relations that it asks for do.
-/
theorem Reflects.answers_evaluateRule
    (hScene : scene.Reflects facts)
    (hAsk : ∀ (other : Node) (answer : Bool),
      (ask other).Yields answer →
        facts.Answers (.relation path other) answer)
    (rule : Rule)
    {answer : Bool}
    (hRule : (scene.evaluateRule ask node rule).Yields answer) :
    facts.Answers (.rule path node rule) answer := by
  induction rule using Rule.induct generalizing answer with
  | direct allowed =>
      rw [evaluateRule] at hRule
      exact hScene.answers_direct hAsk hRule
  | computed relation =>
      rw [evaluateRule] at hRule
      exact .computed (hAsk _ _ hRule)
  | tupleToUserset tupleset computed =>
      rw [evaluateRule] at hRule
      exact hScene.answers_tupleToUserset hAsk hRule
  | union children ih =>
      rw [evaluateRule, evaluateRules_eq_map] at hRule
      rcases hRule with ⟨meter, hRule⟩
      cases answer with
      | true =>
          rcases yields_true_of_anyOf hRule with
            ⟨part, hPart, hYields⟩
          rcases List.mem_map.mp hPart with ⟨child, hChild, rfl⟩
          exact .unionTrue hChild (ih child hChild hYields)
      | false =>
          have hNone := (yields_false_of_anyOf hRule).2
          apply Facts.Answers.unionFalse
          intro child hChild
          exact ih child hChild
            (hNone _ (List.mem_map_of_mem hChild))
  | intersection children ih =>
      rw [evaluateRule, evaluateRules_eq_map] at hRule
      rcases hRule with ⟨meter, hRule⟩
      cases answer with
      | true =>
          have hAll := (yields_true_of_allOf hRule).2
          apply Facts.Answers.intersectionTrue
          intro child hChild
          exact ih child hChild
            (hAll _ (List.mem_map_of_mem hChild))
      | false =>
          rcases yields_false_of_allOf hRule with
            ⟨part, hPart, hYields⟩
          rcases List.mem_map.mp hPart with ⟨child, hChild, rfl⟩
          exact .intersectionFalse hChild
            (ih child hChild hYields)
  | exclusion base subtract ihBase ihSubtract =>
      rw [evaluateRule] at hRule
      rcases hRule with ⟨meter, hRule⟩
      cases answer with
      | true =>
          rcases yields_of_butNot_true hRule with
            ⟨hBase, hSubtract⟩
          exact .exclusionTrue (ihBase hBase)
            (ihSubtract hSubtract)
      | false =>
          rcases yields_of_butNot_false hRule with
            hBase | hSubtract
          · exact .baseFalse (ihBase hBase)
          · exact .subtractTrue (ihSubtract hSubtract)

end Refinement

/-
  An evaluation that ends with an answer ends with the one
  that can be derived below the same path. The induction is
  on the levels that are left, which the derivation ignores.
-/
theorem Reflects.answers_evaluate
    (hScene : scene.Reflects facts)
    {levels : Nat}
    {path : List Node}
    {node : Node}
    {answer : Bool}
    (hEvaluate :
      (scene.evaluate levels path node).Yields answer) :
    facts.Answers (.relation path node) answer := by
  induction levels generalizing path node answer with
  | zero =>
      rcases hEvaluate with ⟨meter, hEvaluate⟩
      rw [evaluate] at hEvaluate
      split at hEvaluate <;> cases hEvaluate
  | succ levels ih =>
      rcases hEvaluate with ⟨meter, hEvaluate⟩
      rw [evaluate, hScene.schema] at hEvaluate
      split at hEvaluate
      · cases hEvaluate
      · next entered _ =>
          split at hEvaluate
          · next hFind =>
              cases hEvaluate
              exact .undefined hFind
          · next definition hFind =>
              split at hEvaluate
              · next hPath =>
                  cases hEvaluate
                  exact .repeated hPath
              · next hPath =>
                  exact .defined hFind hPath
                    (hScene.answers_evaluateRule
                      (fun other answer hOther => ih hOther)
                      definition.rule ⟨entered, hEvaluate⟩)

end Scene

end Rebac
