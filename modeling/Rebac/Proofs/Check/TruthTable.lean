import Rebac.Proofs.Check.Fixpoint
import Rebac.Proofs.Check.Path
import Rebac.Proofs.Model.Compile

/-
  This file proves when the truth table of a connective holds
  between the checks of a relation and of the two relations
  that it is defined from.

  Each check starts without a path, but within the check of
  the relation its parts are evaluated below the relation. So
  the table holds where that makes no difference to the parts.
  For an intersection it never does, since the relation does
  not hold below its own parts. For the same reason it makes
  no difference to the first part of an exclusion.

  Key definitions include:
    * `Connective`
    * `Connective.rule`
    * `Connective.combine`
    * `Connective.Untangled`
    * `Connective.Allows`
    * `Request.about`

  Key theorems include:
    * `Connective.answer_eq`
    * `Engine.allowed_iff_allows`
-/

namespace Rebac

------------------------------------------------------------
-- Connectives
------------------------------------------------------------

/- How a relation may be defined from two other relations. -/
inductive Connective where
  | butNot
  | or
  | and
  deriving DecidableEq, Repr

namespace Connective

/- The rule that combines two relations of the same object. -/
def rule (first second : Bytes) : Connective → Rule
  | .butNot => .exclusion (.computed first) (.computed second)
  | .or => .union [.computed first, .computed second]
  | .and => .intersection [.computed first, .computed second]

/- The truth table. -/
def combine (first second : Bool) : Connective → Bool
  | .butNot => first && !second
  | .or => first || second
  | .and => first && second

/-
  Whether the parts are the same below the whole: that which
  is subtracted does not lead back to the whole, and a union
  does not depend on itself through a subtract side.
-/
def Untangled
    (facts : Facts)
    (whole second : Node) : Connective → Prop
  | .butNot => ¬ facts.LeadsTo second whole
  | .or => ¬ facts.DependsThroughSubtract whole whole
  | .and => True

/- Whether two decisions allow what combines them. -/
def Allows (first second : Decision) : Connective → Prop
  | .butNot => first = .allowed ∧ second = .denied
  | .or => first = .allowed ∨ second = .allowed
  | .and => first = .allowed ∧ second = .allowed

theorem allows_iff
    {first second : Bool}
    (connective : Connective) :
    connective.Allows (.ofAnswer first) (.ofAnswer second) ↔
      connective.combine first second = true := by
  cases connective <;> cases first <;> cases second <;>
    simp [Allows, combine, Decision.ofAnswer]

------------------------------------------------------------
-- Rules
------------------------------------------------------------

variable {facts : Facts}
variable {connective : Connective}
variable {first second relation : Bytes}
variable {object : ObjectRef}
variable {path : List Node}

/- The answers of the parts are combined. -/
theorem answers_rule
    {firstAnswer secondAnswer : Bool}
    (hFirst : facts.Answers
      (.relation path ⟨first, object⟩) firstAnswer)
    (hSecond : facts.Answers
      (.relation path ⟨second, object⟩) secondAnswer) :
    facts.Answers
      (.rule path ⟨relation, object⟩
        (connective.rule first second))
      (connective.combine firstAnswer secondAnswer) := by
  have hTail : Rule.computed second ∈
      [Rule.computed first, Rule.computed second] :=
    List.mem_cons_of_mem _ List.mem_cons_self
  cases connective with
  | butNot =>
      cases firstAnswer with
      | false => exact .baseFalse (.computed hFirst)
      | true =>
          cases secondAnswer with
          | false =>
              exact .exclusionTrue (.computed hFirst)
                (.computed hSecond)
          | true => exact .subtractTrue (.computed hSecond)
  | or =>
      cases firstAnswer with
      | true =>
          exact .unionTrue List.mem_cons_self (.computed hFirst)
      | false =>
          cases secondAnswer with
          | true => exact .unionTrue hTail (.computed hSecond)
          | false =>
              apply Facts.Answers.unionFalse
              rw [List.forall_mem_cons, List.forall_mem_singleton]
              exact ⟨.computed hFirst, .computed hSecond⟩
  | and =>
      cases firstAnswer with
      | false =>
          exact .intersectionFalse List.mem_cons_self
            (.computed hFirst)
      | true =>
          cases secondAnswer with
          | false =>
              exact .intersectionFalse hTail (.computed hSecond)
          | true =>
              apply Facts.Answers.intersectionTrue
              rw [List.forall_mem_cons, List.forall_mem_singleton]
              exact ⟨.computed hFirst, .computed hSecond⟩

/- A part that decides against the whole, whatever the other. -/
def Decides
    (part first second : Bytes)
    (connective : Connective) : Prop :=
  connective ≠ .or ∧ part = first ∨
    connective = .and ∧ part = second

/- A whole does not hold where a part decides against it. -/
theorem Decides.answers_rule
    {part : Bytes}
    (hDecides : connective.Decides part first second)
    (hPart : facts.Answers
      (.relation path ⟨part, object⟩) false) :
    facts.Answers
      (.rule path ⟨relation, object⟩
        (connective.rule first second)) false := by
  rcases hDecides with ⟨hConnective, rfl⟩ | ⟨rfl, rfl⟩
  · cases connective with
    | butNot => exact .baseFalse (.computed hPart)
    | or => exact absurd rfl hConnective
    | and =>
        exact .intersectionFalse List.mem_cons_self
          (.computed hPart)
  · exact .intersectionFalse
      (List.mem_cons_of_mem _ List.mem_cons_self)
      (.computed hPart)

------------------------------------------------------------
-- Parts Below the Whole
------------------------------------------------------------

/-
  Below a part that decides against it, a whole never holds:
  the part is met again there, so that it does not hold.
-/
def decidedShutter
    {part : Bytes}
    (hFind :
      facts.schema.find? object.type relation =
        some ⟨relation, connective.rule first second⟩)
    (hDecides : connective.Decides part first second) :
    facts.Shutter ⟨relation, object⟩ where
  Above path node := ⟨part, object⟩ ∈ node :: path
  below hAbove _ := List.mem_cons_of_mem _ hAbove
  never {path} hAbove hAnswers := by
    by_cases hPath : (⟨relation, object⟩ : Node) ∈ path
    · cases hAnswers.unique (.repeated hPath)
    · have hRule :
          facts.Answers
            (.rule (⟨relation, object⟩ :: path)
              ⟨relation, object⟩
              (connective.rule first second)) false :=
        hDecides.answers_rule (.repeated hAbove)
      cases hAnswers.unique (.defined hFind hPath hRule)

------------------------------------------------------------
-- Truth Tables
------------------------------------------------------------

/- The whole is decided by the parts below it. -/
theorem answer_eq_of_below
    {answer firstAnswer secondAnswer : Bool}
    (hFind :
      facts.schema.find? object.type relation =
        some ⟨relation, connective.rule first second⟩)
    (hWhole : facts.Answers
      (.relation [] ⟨relation, object⟩) answer)
    (hFirst : facts.Answers
      (.relation [⟨relation, object⟩] ⟨first, object⟩)
      firstAnswer)
    (hSecond : facts.Answers
      (.relation [⟨relation, object⟩] ⟨second, object⟩)
      secondAnswer) :
    answer = connective.combine firstAnswer secondAnswer :=
  hWhole.unique
    (.defined hFind List.not_mem_nil
      (answers_rule hFirst hSecond))

/- A union that holds has a part that holds by itself. -/
theorem exists_part_of_or
    (hFind :
      facts.schema.find? object.type relation =
        some ⟨relation, Connective.or.rule first second⟩)
    (hAcyclic :
      ¬ facts.DependsThroughSubtract ⟨relation, object⟩
        ⟨relation, object⟩)
    (hWhole : facts.Answers
      (.relation [] ⟨relation, object⟩) true) :
    ∃ part ∈ [first, second],
      facts.Answers (.relation [] ⟨part, object⟩) true := by
  cases hWhole with
  | defined hFound _ hRule =>
      rw [hFind] at hFound
      cases hFound
      cases hRule with
      | @unionTrue _ _ _ child hChild hAnswer =>
          have hComputed :
              child ∈ [first, second].map Rule.computed := hChild
          rcases List.mem_map.mp hComputed with
            ⟨part, hPart, rfl⟩
          have hDepends :
              facts.Depends false ⟨relation, object⟩
                ⟨part, object⟩ :=
            ⟨_, hFind, .union hChild .computed⟩
          cases hAnswer with
          | computed hBelow =>
              exact ⟨part, hPart,
                hBelow.withoutPath hAcyclic
                  (List.forall_mem_singleton.mpr .refl)
                  hDepends.leadsTo⟩

/-
  The answers of the whole and of its parts, each without a
  path, are as the truth table says.
-/
theorem answer_eq
    {answer firstAnswer secondAnswer : Bool}
    (hFind :
      facts.schema.find? object.type relation =
        some ⟨relation, connective.rule first second⟩)
    (hUntangled :
      connective.Untangled facts ⟨relation, object⟩
        ⟨second, object⟩)
    (hWhole : facts.Answers
      (.relation [] ⟨relation, object⟩) answer)
    (hFirst : facts.Answers
      (.relation [] ⟨first, object⟩) firstAnswer)
    (hSecond : facts.Answers
      (.relation [] ⟨second, object⟩) secondAnswer) :
    answer = connective.combine firstAnswer secondAnswer := by
  cases connective with
  | butNot =>
      refine answer_eq_of_below hFind hWhole
        (hFirst.insert
          (decidedShutter hFind (.inl ⟨nofun, rfl⟩)) ?_)
        (hSecond.insert (.apart _) hUntangled)
      exact List.mem_cons_self
  | or =>
      cases answer with
      | true =>
          rcases exists_part_of_or hFind hUntangled hWhole with
            ⟨part, hPart, hHolds⟩
          rw [List.mem_cons, List.mem_singleton] at hPart
          rcases hPart with rfl | rfl
          · rw [hFirst.unique hHolds]
            rfl
          · rw [hSecond.unique hHolds, combine, Bool.or_true]
      | false =>
          have hNil : ∀ above ∈ ([] : List Node),
              facts.LeadsTo above ⟨relation, object⟩ := nofun
          exact answer_eq_of_below hFind hWhole
            (hFirst.insert (.denied hUntangled hWhole)
              fun _ => hNil)
            (hSecond.insert (.denied hUntangled hWhole)
              fun _ => hNil)
  | and =>
      refine answer_eq_of_below hFind hWhole
        (hFirst.insert
          (decidedShutter hFind (.inl ⟨nofun, rfl⟩)) ?_)
        (hSecond.insert
          (decidedShutter hFind (.inr ⟨rfl, rfl⟩)) ?_)
      · exact List.mem_cons_self
      · exact List.mem_cons_self

end Connective

------------------------------------------------------------
-- Decisions
------------------------------------------------------------

/- The same request about another relation. -/
def Request.about
    (request : Request)
    (relation : Bytes) : Request :=
  { request with key := { request.key with relation := relation } }

namespace Engine

/- A check about a relation answers what is asked of it. -/
theorem answers_of_about
    {engine : Engine}
    {model : Model}
    {tables : Tables}
    {bounds : Bounds}
    {request : Request}
    {user : UserRef}
    {object : ObjectRef}
    {relation : Bytes}
    {answer : Bool}
    (hModel : engine.model = some model)
    (hUser : UserRef.parse? request.key.user = some user)
    (hObject : ObjectRef.parse? request.key.object = some object)
    (hDecision :
      (engine.checkWithin tables bounds
        (request.about relation)).decision = .ofAnswer answer) :
    (facts model tables request user).Answers
      (.relation [] ⟨relation, object⟩) answer := by
  have hSameUser :
      UserRef.parse? (request.about relation).key.user =
        some user := hUser
  have hSameObject :
      ObjectRef.parse? (request.about relation).key.object =
        some object := hObject
  exact answers_of_decision hModel hSameUser hSameObject hDecision

/-
  The check of a relation that combines two others is allowed
  exactly if the checks of these allow it, however much each
  of the three may take, as long as none is aborted.
-/
theorem allowed_iff_allows
    {engine : Engine}
    {model : Model}
    {tables : Tables}
    {bounds firstBounds secondBounds : Bounds}
    {request : Request}
    {user : UserRef}
    {object : ObjectRef}
    {first second : Bytes}
    {connective : Connective}
    (hModel : engine.model = some model)
    (hUser : UserRef.parse? request.key.user = some user)
    (hObject : ObjectRef.parse? request.key.object = some object)
    (hFind :
      model.schema.find? object.type request.key.relation =
        some ⟨request.key.relation,
          connective.rule first second⟩)
    (hUntangled :
      connective.Untangled (facts model tables request user)
        ⟨request.key.relation, object⟩ ⟨second, object⟩)
    (hWhole : ∀ abort,
      (engine.checkWithin tables bounds request).decision ≠
        .aborted abort)
    (hFirst : ∀ abort,
      (engine.checkWithin tables firstBounds
        (request.about first)).decision ≠ .aborted abort)
    (hSecond : ∀ abort,
      (engine.checkWithin tables secondBounds
        (request.about second)).decision ≠ .aborted abort) :
    (engine.checkWithin tables bounds request).decision =
        .allowed ↔
      connective.Allows
        (engine.checkWithin tables firstBounds
          (request.about first)).decision
        (engine.checkWithin tables secondBounds
          (request.about second)).decision := by
  rcases Decision.exists_ofAnswer hWhole with
    ⟨answer, hAnswer⟩
  rcases Decision.exists_ofAnswer hFirst with
    ⟨firstAnswer, hFirstAnswer⟩
  rcases Decision.exists_ofAnswer hSecond with
    ⟨secondAnswer, hSecondAnswer⟩
  have hCombined :
      answer = connective.combine firstAnswer secondAnswer :=
    Connective.answer_eq hFind hUntangled
      (answers_of_decision hModel hUser hObject hAnswer)
      (answers_of_about hModel hUser hObject hFirstAnswer)
      (answers_of_about hModel hUser hObject hSecondAnswer)
  rw [hAnswer, hFirstAnswer, hSecondAnswer,
    Connective.allows_iff, ← hCombined]
  cases answer <;> decide

end Engine

------------------------------------------------------------
-- An Example
------------------------------------------------------------

namespace Documents

/- Blocked users do not depend on the viewers. -/
theorem viewer_untangled :
    Connective.butNot.Untangled aliceFacts
      ⟨utf8 "viewer", readme⟩ ⟨utf8 "blocked", readme⟩ := by
  intro hLeads
  have hLevel :=
    (strata aliceFacts rfl).level_le_of_leadsTo hLeads
  revert hLevel
  decide

/- Alice views the document, which she may edit. -/
theorem viewer_table :
    (engine.checkWithin tables wide request).decision =
        .allowed ↔
      Connective.butNot.Allows
        (engine.checkWithin tables wide
          (request.about (utf8 "editor"))).decision
        (engine.checkWithin tables wide
          (request.about (utf8 "blocked"))).decision := by
  have hEditor :
      (engine.checkWithin tables wide
        (request.about (utf8 "editor"))).decision =
          .allowed := by
    decide +kernel
  have hBlocked :
      (engine.checkWithin tables wide
        (request.about (utf8 "blocked"))).decision =
          .denied := by
    decide +kernel
  have hUser : UserRef.parse? request.key.user = some alice := by
    decide +kernel
  have hObject :
      ObjectRef.parse? request.key.object = some readme := by
    decide +kernel
  refine Engine.allowed_iff_allows rfl hUser hObject rfl
    viewer_untangled ?_ ?_ ?_
  · rw [wide_decision]
    exact fun _ => Decision.noConfusion
  · rw [hEditor]
    exact fun _ => Decision.noConfusion
  · rw [hBlocked]
    exact fun _ => Decision.noConfusion

end Documents

------------------------------------------------------------
-- Tangled Relations
------------------------------------------------------------

namespace Papers

/- Who is a reader is banned, and who is banned is no reader. -/
def bans : Bytes :=
  utf8 "model
  schema 1.1
type doc
  relations
    define banned: reader
    define member: [user]
    define reader: member but not banned
"

/- Authors and hosts are editors, who are no authors or hosts. -/
def roles : Bytes :=
  utf8 "model
  schema 1.1
type doc
  relations
    define author: member but not editor
    define editor: author or host
    define host: member but not editor
    define member: [user]
"

/- The schema with the given relations of documents. -/
def schemaOf (relations : List RelationDefinition) : Schema :=
  { version := utf8 "1.1"
    types := [{ name := utf8 "doc", relations := relations }] }

/- Some users are members by themselves. -/
def members : RelationDefinition :=
  { name := utf8 "member"
    rule := .direct [.plain (utf8 "user")] }

def bansSchema : Schema :=
  schemaOf
    [⟨utf8 "banned", .computed (utf8 "reader")⟩,
      members,
      ⟨utf8 "reader",
        Connective.butNot.rule (utf8 "member") (utf8 "banned")⟩]

def rolesSchema : Schema :=
  schemaOf
    [⟨utf8 "author",
        Connective.butNot.rule (utf8 "member") (utf8 "editor")⟩,
      ⟨utf8 "editor",
        Connective.or.rule (utf8 "author") (utf8 "host")⟩,
      ⟨utf8 "host",
        Connective.butNot.rule (utf8 "member") (utf8 "editor")⟩,
      members]

theorem bans_compiled :
    (compile bans).schema? = some bansSchema := by
  refine schema?_of_outline ?_ ⟨?_, ?_⟩ <;> decide +kernel

theorem roles_compiled :
    (compile roles).schema? = some rolesSchema := by
  refine schema?_of_outline ?_ ⟨?_, ?_⟩ <;> decide +kernel

/- What Alice, a member, is told about a relation. -/
def decision (schema : Schema) (relation : Bytes) : Decision :=
  let engine : Engine :=
    { model := some { Documents.model with schema := schema } }
  let request : Request :=
    { key := ⟨utf8 "user:alice", relation, utf8 "doc:readme"⟩
      contextual :=
        [⟨utf8 "user:alice", utf8 "member",
          utf8 "doc:readme"⟩] }
  (engine.checkWithin {} Documents.wide request).decision

/-
  Alice reads what she is banned from, and is an editor while
  she is neither an author nor a host.
-/
theorem tables_broken :
    (compile bans).schema? = some bansSchema ∧
      bansSchema.find? (utf8 "doc") (utf8 "reader") =
        some ⟨utf8 "reader",
          Connective.butNot.rule (utf8 "member")
            (utf8 "banned")⟩ ∧
      decision bansSchema (utf8 "reader") = .allowed ∧
      decision bansSchema (utf8 "banned") = .allowed ∧
      (compile roles).schema? = some rolesSchema ∧
      rolesSchema.find? (utf8 "doc") (utf8 "editor") =
        some ⟨utf8 "editor",
          Connective.or.rule (utf8 "author") (utf8 "host")⟩ ∧
      decision rolesSchema (utf8 "editor") = .allowed ∧
      decision rolesSchema (utf8 "author") = .denied ∧
      decision rolesSchema (utf8 "host") = .denied := by
  refine ⟨bans_compiled, ?_, ?_, ?_, roles_compiled, ?_, ?_,
    ?_, ?_⟩ <;>
    decide +kernel

end Papers

end Rebac
