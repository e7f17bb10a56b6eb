import Rebac.Proofs.Check.Calls
import Rebac.Proofs.Check.Presence

/-
  This file proves when the store is the reason that a check
  has no answer.

  An evaluation stops because of the store only where tuples
  cannot be read. Tuples are all kept in one table, so that
  either all of them can be read or none. If none can, nothing
  is allowed.

  Key definitions include:
    * `Evaluation.Unfailing`

  Key theorems include:
    * `Scene.unfailing_evaluateRule`
    * `Scene.unfailing_evaluate`
    * `Engine.answer_ne_storage`
    * `Engine.readable_of_allowed`
-/

namespace Rebac

namespace Evaluation

------------------------------------------------------------
-- Combinations
------------------------------------------------------------

/- An evaluation that never stops because of the store. -/
def Unfailing (evaluation : Evaluation) : Prop :=
  ∀ meter, (evaluation meter).1 ≠ .error .storage

/- An answer is no interruption. -/
theorem ok_ne_storage (answer : Bool) :
    (Except.ok answer : Except Interruption Bool) ≠
      .error .storage := by
  intro hStorage
  cases hStorage

theorem unfailing_always (answer : Bool) :
    (always answer).Unfailing :=
  fun _ => ok_ne_storage answer

theorem unfailing_interrupted
    {interruption : Interruption}
    (hOther : interruption ≠ .storage) :
    (interrupted interruption).Unfailing :=
  fun _ => mt Except.error.inj hOther

/- What goes on after an outcome need not expect the store. -/
theorem Unfailing.followedBy
    {evaluation : Evaluation}
    {next : Except Interruption Bool → Evaluation}
    (hFirst : evaluation.Unfailing)
    (hNext : ∀ outcome, outcome ≠ .error .storage →
      (next outcome).Unfailing) :
    (evaluation.followedBy next).Unfailing :=
  fun meter => hNext _ (hFirst meter) _

variable {earlier : Option Interruption}

theorem first_ne_storage
    {interruption : Interruption}
    (hEarlier : earlier ≠ some .storage)
    (hOther : interruption ≠ .storage) :
    first earlier interruption ≠ some .storage := by
  cases earlier with
  | none => exact mt Option.some.inj hOther
  | some before => exact hEarlier

theorem unfailing_settle
    (hEarlier : earlier ≠ some .storage)
    (answer : Bool) :
    Unfailing fun meter => (settle earlier answer, meter) := by
  cases earlier with
  | none => exact unfailing_always answer
  | some interruption =>
      exact unfailing_interrupted (mt (congrArg some) hEarlier)

theorem unfailing_anyOf
    {parts : List Evaluation}
    (hParts : ∀ part ∈ parts, part.Unfailing)
    (hEarlier : earlier ≠ some .storage) :
    (anyOf earlier parts).Unfailing := by
  induction parts generalizing earlier with
  | nil => exact unfailing_settle hEarlier false
  | cons part others ih =>
      rcases List.forall_mem_cons.mp hParts with ⟨hPart, hOthers⟩
      rw [anyOf_cons]
      refine hPart.followedBy ?_
      rintro (interruption | _ | _) hOutcome
      · exact ih hOthers
          (first_ne_storage hEarlier (mt (congrArg _) hOutcome))
      · exact ih hOthers hEarlier
      · exact unfailing_always true

theorem unfailing_allOf
    {parts : List Evaluation}
    (hParts : ∀ part ∈ parts, part.Unfailing)
    (hEarlier : earlier ≠ some .storage) :
    (allOf earlier parts).Unfailing := by
  induction parts generalizing earlier with
  | nil => exact unfailing_settle hEarlier true
  | cons part others ih =>
      rcases List.forall_mem_cons.mp hParts with ⟨hPart, hOthers⟩
      rw [allOf_cons]
      refine hPart.followedBy ?_
      rintro (interruption | _ | _) hOutcome
      · exact ih hOthers
          (first_ne_storage hEarlier (mt (congrArg _) hOutcome))
      · exact unfailing_always false
      · exact ih hOthers hEarlier

theorem unfailing_butNot
    {base subtract : Evaluation}
    (hBase : base.Unfailing)
    (hSubtract : subtract.Unfailing) :
    (butNot base subtract).Unfailing := by
  rw [butNot_eq]
  refine hBase.followedBy ?_
  rintro (interruption | _ | _) hOutcome
  · refine hSubtract.followedBy ?_
    rintro (_ | _ | _) _
    · exact unfailing_interrupted (mt (congrArg _) hOutcome)
    · exact unfailing_interrupted (mt (congrArg _) hOutcome)
    · exact unfailing_always false
  · exact unfailing_always false
  · refine hSubtract.followedBy ?_
    rintro (interruption | subtracted) hSubtracted
    · exact unfailing_interrupted (mt (congrArg _) hSubtracted)
    · exact unfailing_always (!subtracted)

theorem unfailing_anyTuple
    {bounds : Bounds}
    {condition : UserRef → Evaluation}
    {users : List UserRef}
    (hUsers : ∀ user ∈ users, (condition user).Unfailing)
    (hEarlier : earlier ≠ some .storage) :
    (anyTuple bounds condition earlier users).Unfailing := by
  induction users generalizing earlier with
  | nil => exact unfailing_settle hEarlier false
  | cons user others ih =>
      rcases List.forall_mem_cons.mp hUsers with ⟨hUser, hOthers⟩
      rw [anyTuple_cons]
      intro meter
      dsimp only
      split
      · exact mt Except.error.inj Interruption.noConfusion
      · refine hUser.followedBy ?_ _
        rintro (interruption | _ | _) hOutcome
        · exact ih hOthers
            (first_ne_storage hEarlier (mt (congrArg _) hOutcome))
        · exact ih hOthers hEarlier
        · exact unfailing_always true

end Evaluation

------------------------------------------------------------
-- Scenes
------------------------------------------------------------

namespace Scene

open Evaluation

variable {scene : Scene}
variable {ask : Node → Evaluation}

/- A step is only refused for a limit. -/
theorem ne_storage_of_enter
    {bounds : Bounds}
    {depth : Nat}
    {meter after : Meter}
    {interruption : Interruption}
    (hEnter :
      meter.enter bounds depth = (.error interruption, after)) :
    interruption ≠ .storage := by
  unfold Meter.enter at hEnter
  dsimp only at hEnter
  split at hEnter
  · cases hEnter
    exact Interruption.noConfusion
  · split at hEnter <;> cases hEnter
    exact Interruption.noConfusion

theorem unfailing_direct
    {allowed : List TypeSpec}
    {assigned : UserRef}
    (hAsk : ∀ node, (ask node).Unfailing) :
    (scene.direct ask allowed assigned).Unfailing := by
  rw [direct_eq]
  split
  · exact unfailing_always false
  · split
    · exact unfailing_always true
    · split
      · exact unfailing_always false
      · next group _ => exact hAsk group

theorem unfailing_tupleToUserset
    {computed : Bytes}
    {assigned : UserRef}
    (hAsk : ∀ node, (ask node).Unfailing) :
    (tupleToUserset ask computed assigned).Unfailing := by
  unfold tupleToUserset
  split
  · exact unfailing_always false
  · exact hAsk _

variable
  (hUsers : ∀ relation object,
    scene.users relation object ≠ none)

include hUsers

theorem unfailing_overTuples
    {relation : Bytes}
    {object : ObjectRef}
    {condition : UserRef → Evaluation}
    (hCondition : ∀ user, (condition user).Unfailing) :
    (scene.overTuples relation object condition).Unfailing := by
  unfold overTuples
  split
  · next hNone => exact absurd hNone (hUsers relation object)
  · exact unfailing_anyTuple (fun user _ => hCondition user)
      (Option.some_ne_none _).symm

/- A rule stops because of the store only if a node does. -/
theorem unfailing_evaluateRule
    {node : Node}
    (hAsk : ∀ other, (ask other).Unfailing)
    (rule : Rule) :
    (scene.evaluateRule ask node rule).Unfailing := by
  induction rule using Rule.induct with
  | direct allowed =>
      rw [evaluateRule]
      exact unfailing_overTuples hUsers
        fun _ => unfailing_direct hAsk
  | computed relation =>
      rw [evaluateRule]
      exact hAsk _
  | tupleToUserset tupleset computed =>
      rw [evaluateRule]
      exact unfailing_overTuples hUsers
        fun _ => unfailing_tupleToUserset hAsk
  | union children ih =>
      rw [evaluateRule, evaluateRules_eq_map]
      exact unfailing_anyOf (List.forall_mem_map.mpr ih)
        (Option.some_ne_none _).symm
  | intersection children ih =>
      rw [evaluateRule, evaluateRules_eq_map]
      exact unfailing_allOf (List.forall_mem_map.mpr ih)
        (Option.some_ne_none _).symm
  | exclusion base subtract ihBase ihSubtract =>
      rw [evaluateRule]
      exact unfailing_butNot ihBase ihSubtract

/-
  Where all tuples can be read, no evaluation stops because of
  the store. The induction is on the levels.
-/
theorem unfailing_evaluate
    (levels : Nat)
    (path : List Node)
    (node : Node) :
    (scene.evaluate levels path node).Unfailing := by
  induction levels generalizing path node with
  | zero =>
      intro meter
      rw [evaluate]
      split
      · next hRefused =>
          exact mt Except.error.inj (ne_storage_of_enter hRefused)
      · exact mt Except.error.inj Interruption.noConfusion
  | succ levels ih =>
      intro meter
      rw [evaluate]
      split
      · next hRefused =>
          exact mt Except.error.inj (ne_storage_of_enter hRefused)
      · split
        · exact ok_ne_storage _
        · next definition _ =>
            split
            · exact ok_ne_storage _
            · exact unfailing_evaluateRule hUsers
                (fun other => ih (node :: path) other)
                definition.rule _

end Scene

------------------------------------------------------------
-- Questions
------------------------------------------------------------

namespace Engine

variable {tables : Tables}
variable {bounds : Bounds}
variable {question : Question}

/- A question is not aborted for a store that can be read. -/
theorem answer_ne_storage
    (hReadable : tables.require .tuples = .ok ()) :
    (answer tables bounds question).decision ≠
      .aborted (.interrupted .storage) := by
  have hUsers : ∀ relation object,
      (scene tables bounds question).users relation object ≠
        none := by
    intro relation object
    rw [scene]
    simp [visibleUsers, Tables.tuplesOn, Tables.find, hReadable]
  have hEvaluate :=
    Scene.unfailing_evaluate hUsers (bounds.maxDepth + 1) []
      question.node {}
  rw [answer]
  dsimp only
  split
  · next answer _ =>
      cases answer <;> exact Decision.noConfusion
  · next interruption hFound =>
      rw [hFound] at hEvaluate
      intro hStorage
      cases hStorage
      exact hEvaluate rfl

/- What is allowed is allowed by tuples that can be read. -/
theorem readable_of_allowed
    (hWellFormed : question.schema.WellFormed)
    (hAllowed :
      (answer tables bounds question).decision = .allowed) :
    tables.require .tuples = .ok () := by
  cases hRequire : tables.require .tuples with
  | ok _ => rfl
  | error error =>
      have hScene : (scene tables bounds question).users =
          fun _ _ => none := by
        funext relation object
        simp [scene, visibleUsers, Tables.tuplesOn, Tables.find,
          hRequire]
      have hYields :
          ((scene tables bounds question).evaluate
            (bounds.maxDepth + 1) [] question.node).Yields
              true := by
        refine ⟨{}, ?_⟩
        rw [answer] at hAllowed
        dsimp only at hAllowed
        split at hAllowed
        · next answer hOutcome =>
            cases answer with
            | false => cases hAllowed
            | true => exact hOutcome
        · cases hAllowed
      have hAnswers :=
        (Scene.reflects_facts _).answers_evaluate hYields
      rcases hAnswers.occupied hWellFormed.proper rfl trivial with
        ⟨parts, ⟨users, hUsers, _⟩, _⟩
      rw [hScene] at hUsers
      cases hUsers

end Engine

end Rebac
