import Rebac.Proofs.Check.Visible
import Rebac.Proofs.Model.Compile

/-
  This file proves that nothing is allowed on an object that
  no tuple is on.

  Rules do not leave their object without reading a tuple on
  it. Only an intersection of no rules would hold without
  tuples, and no source is compiled to one.

  Key definitions include:
    * `Facts.Inquiry.Proper`

  Key theorems include:
    * `Facts.Answers.occupied`
    * `Engine.occupied_of_allowed`
-/

namespace Rebac

------------------------------------------------------------
-- Answers
------------------------------------------------------------

namespace Facts

/- The object of a relation or rule that is asked about. -/
def Inquiry.object : Inquiry → ObjectRef
  | .relation _ node => node.object
  | .rule _ node _ => node.object

/- No intersection of no rules is asked about. -/
def Inquiry.Proper : Inquiry → Prop
  | .relation _ _ => True
  | .rule _ _ asked => asked.Proper

theorem Inquiry.Proper.child
    {path : List Node}
    {node : Node}
    {rule child : Rule}
    (hProper : (Inquiry.rule path node rule).Proper)
    (hChild : child ∈ rule.children) :
    (Inquiry.rule path node child).Proper :=
  Rule.Proper.child hProper hChild

/- Some tuple is on an object. -/
def Occupied (facts : Facts) (object : ObjectRef) : Prop :=
  ∃ parts ∈ facts.tuples, parts.object = object

variable {facts : Facts}

/- An object that a tuple gives a user to is occupied. -/
theorem occupied_of_mem_users
    {relation : Bytes}
    {object : ObjectRef}
    {user : UserRef}
    (hUser : user ∈ facts.users relation object) :
    facts.Occupied object :=
  ⟨⟨user, relation, object⟩, hUser, rfl⟩

/-
  What holds on an object holds by a tuple on it. The
  induction is on the derivation: a computed relation and the
  parts of a rule stay on the object, and the other rules
  hold by a tuple themselves.
-/
theorem Answers.occupied
    {inquiry : Inquiry}
    {answer : Bool}
    (hRules : ∀ {type relation : Bytes} {definition},
      facts.schema.find? type relation = some definition →
        definition.rule.Proper)
    (hAnswers : facts.Answers inquiry answer)
    (hTrue : answer = true)
    (hProper : inquiry.Proper) :
    facts.Occupied inquiry.object := by
  induction hAnswers with
  | undefined _ => cases hTrue
  | repeated _ => cases hTrue
  | defined hFind _ _ ih => exact ih hTrue (hRules hFind)
  | granted hGrants =>
      rcases hGrants with ⟨assigned, hUser, _⟩
      exact occupied_of_mem_users hUser
  | member hGroup _ _ =>
      rcases hGroup with ⟨assigned, hUser, _⟩
      exact occupied_of_mem_users hUser
  | ungranted _ _ _ => cases hTrue
  | computed _ ih => exact ih hTrue trivial
  | related hTarget _ _ =>
      rcases hTarget with ⟨assigned, hUser, _⟩
      exact occupied_of_mem_users hUser
  | unrelated _ _ => cases hTrue
  | unionTrue hChild _ ih =>
      exact ih hTrue (hProper.child hChild)
  | unionFalse _ _ => cases hTrue
  | @intersectionTrue path node children _ ih =>
      cases children with
      | nil => exact absurd (Rule.self_mem_parts _) hProper
      | cons child others =>
          have hChild : child ∈ child :: others :=
            List.mem_cons_self
          exact ih child hChild hTrue (hProper.child hChild)
  | intersectionFalse _ _ _ => cases hTrue
  | exclusionTrue _ _ ihBase _ =>
      exact ihBase hTrue (hProper.child List.mem_cons_self)
  | baseFalse _ _ => cases hTrue
  | subtractTrue _ _ => cases hTrue

end Facts

------------------------------------------------------------
-- Decisions
------------------------------------------------------------

/- A request is only allowed if it sees a tuple on its object. -/
theorem Engine.occupied_of_allowed
    {engine : Engine}
    {model : Model}
    {tables : Tables}
    {bounds : Bounds}
    {request : Request}
    (hModel : engine.model = some model)
    (hWellFormed : model.schema.WellFormed)
    (hAllowed :
      (engine.checkWithin tables bounds request).decision =
        .allowed) :
    ∃ parts ∈ visibleTuples tables request,
      ObjectRef.parse? request.key.object = some parts.object := by
  have hDecided : ∀ abort,
      (engine.checkWithin tables bounds request).decision ≠
        .aborted abort := by
    rw [hAllowed]
    exact fun _ => Decision.noConfusion
  have hAnswer :
      (engine.checkWithin tables bounds request).decision =
        .ofAnswer true := hAllowed
  rcases understood_of_decided hDecided with ⟨question, hAsked⟩
  have hAnswers :=
    answers_of_decision hModel hAsked.user hAsked.object hAnswer
  rcases hAnswers.occupied hWellFormed.proper rfl trivial with
    ⟨parts, hParts, hObject⟩
  exact ⟨parts, hParts, hObject ▸ hAsked.object⟩

end Rebac
