import Mathlib.Data.Set.Finite.List
import Rebac.Check.Request
import Rebac.Proofs.Check.Refinement
import Rebac.Proofs.Store.Query

/-
  This file relates the decision of a request to the set of
  tuples that it sees.

  A request sees the tuples of its snapshot and those that it
  brings itself. Only this set matters to a decision, and not
  where its tuples come from, in which order they are read or
  which limits the evaluation has.

  Key definitions include:
    * `Engine.visibleTuples`
    * `Engine.facts`
    * `Engine.Understood`

  Key theorems include:
    * `Engine.answers_of_decision`
    * `Engine.decision_eq_of_visibleTuples_eq`
-/

------------------------------------------------------------
-- Requests
------------------------------------------------------------

namespace Rebac

namespace Engine

/-
  The tuples that a request sees: those of its snapshot and
  those that it brings itself.
-/
def visibleTuples
    (tables : Tables)
    (request : Request) : Set TupleKey.Parts :=
  { parts |
    (∃ txid, snapshot tables request = .ok txid ∧
      ∃ tuple ∈ tables.tuples,
        tuple.VisibleAt txid ∧ tuple.parts = parts) ∨
      ∃ key ∈ request.contextual, key.check = .ok parts }

/- A request sees finitely many tuples. -/
theorem finite_visibleTuples
    (tables : Tables)
    (request : Request) :
    (visibleTuples tables request).Finite := by
  have hStored :=
    List.finite_toSet (tables.tuples.map StoredTuple.parts)
  have hContextual :=
    List.finite_toSet (request.contextual.filterMap
      fun key => key.check.toOption)
  refine (hStored.union hContextual).subset ?_
  rintro parts (⟨_, _, tuple, hTuple, _, rfl⟩ |
    ⟨key, hKey, hCheck⟩)
  · exact Or.inl (List.mem_map_of_mem hTuple)
  · refine Or.inr (List.mem_filterMap.mpr ⟨key, hKey, ?_⟩)
    rw [hCheck]
    rfl

/- What the decision about a user depends on. -/
def facts
    (model : Model)
    (tables : Tables)
    (request : Request)
    (user : UserRef) : Facts :=
  { schema := model.schema
    tuples := visibleTuples tables request
    user := user }

/- What has been understood of a request. -/
structure Understood
    (engine : Engine)
    (tables : Tables)
    (request : Request)
    (question : Question) : Prop where
  model : ∃ model, engine.model = some model ∧
    question.schema = model.schema
  user : UserRef.parse? request.key.user = some question.user
  object : ObjectRef.parse? request.key.object =
    some question.node.object
  relation : question.node.relation = request.key.relation
  contextual : readContextual request.contextual =
    .ok question.contextual
  txid : snapshot tables request = .ok question.txid

/- A question says what its request says. -/
theorem understood_of_understand
    {engine : Engine}
    {tables : Tables}
    {request : Request}
    {question : Question}
    (hUnderstand :
      engine.understand tables request = .ok question) :
    engine.Understood tables request question := by
  rw [understand] at hUnderstand
  split at hUnderstand
  · cases hUnderstand
  · next model hModel =>
      dsimp only at hUnderstand
      split at hUnderstand
      · cases hUnderstand
      · next user hUser =>
          split at hUnderstand
          · cases hUnderstand
          · next object hObject =>
              split at hUnderstand
              · cases hUnderstand
              · split at hUnderstand
                · cases hUnderstand
                · split at hUnderstand
                  · cases hUnderstand
                  · next contextual hContextual =>
                      cases hTxid : snapshot tables request with
                      | error abort =>
                          rw [hTxid] at hUnderstand
                          cases hUnderstand
                      | ok txid =>
                          rw [hTxid] at hUnderstand
                          cases hUnderstand
                          exact
                            { model := ⟨model, hModel, rfl⟩
                              user := hUser
                              object := hObject
                              relation := rfl
                              contextual := hContextual
                              txid := hTxid }

/- The tuples that are read are those that the keys give. -/
theorem mem_of_readContextual
    {keys : List TupleKey}
    {contextual : List TupleKey.Parts}
    (hRead : readContextual keys = .ok contextual)
    (parts : TupleKey.Parts) :
    parts ∈ contextual ↔
      ∃ key ∈ keys, key.check = .ok parts := by
  induction keys generalizing contextual with
  | nil =>
      cases hRead
      simp
  | cons key others ih =>
      rw [readContextual] at hRead
      split at hRead
      · cases hRead
      · next found hCheck =>
          cases hOthers : readContextual others with
          | error abort =>
              rw [hOthers] at hRead
              cases hRead
          | ok rest =>
              rw [hOthers] at hRead
              cases hRead
              rw [List.mem_cons, ih hOthers]
              simp [hCheck, eq_comm]

/- The users of the visible tuples with a relation. -/
theorem mem_visibleUsers_iff
    {tables : Tables}
    {txid : Int}
    {contextual : List TupleKey.Parts}
    {relation : Bytes}
    {object : ObjectRef}
    {users : List UserRef}
    (hUsers :
      visibleUsers tables txid contextual relation object =
        some users)
    (user : UserRef) :
    user ∈ users ↔
      (∃ tuple ∈ tables.tuples, tuple.VisibleAt txid ∧
        tuple.parts = ⟨user, relation, object⟩) ∨
      ⟨user, relation, object⟩ ∈ contextual := by
  rw [visibleUsers] at hUsers
  split at hUsers
  · cases hUsers
  · next stored hStored =>
      cases hUsers
      rw [List.mem_append, List.mem_map, List.mem_map]
      apply or_congr
      · constructor
        · rintro ⟨tuple, hTuple, rfl⟩
          rcases (Tables.mem_tuplesOn_iff hStored tuple).mp
            hTuple with ⟨hRow, hVisible, rfl, rfl⟩
          exact ⟨tuple, hRow, hVisible, rfl⟩
        · rintro ⟨tuple, hRow, hVisible, hParts⟩
          refine ⟨tuple, ?_, by rw [hParts]⟩
          rw [Tables.mem_tuplesOn_iff hStored tuple, hParts]
          exact ⟨hRow, hVisible, rfl, rfl⟩
      · constructor
        · rintro ⟨parts, hParts, rfl⟩
          rcases List.mem_filter.mp hParts with ⟨hMem, hOn⟩
          rcases of_decide_eq_true hOn with ⟨rfl, rfl⟩
          exact hMem
        · intro hMem
          exact ⟨⟨user, relation, object⟩,
            List.mem_filter.mpr ⟨hMem, by simp⟩, rfl⟩

/- The scene of a question shows the tuples that it sees. -/
theorem Understood.reflects
    {engine : Engine}
    {tables : Tables}
    {request : Request}
    {question : Question}
    (hAsked : engine.Understood tables request question)
    (bounds : Bounds) :
    (scene tables bounds question).Reflects
      { schema := question.schema
        tuples := visibleTuples tables request
        user := question.user } where
  schema := rfl
  user := rfl
  mem_users {relation object users} hUsers user := by
    rw [mem_visibleUsers_iff hUsers user,
      mem_of_readContextual hAsked.contextual]
    simp [Facts.users, visibleTuples, hAsked.txid]

end Engine

------------------------------------------------------------
-- Decisions
------------------------------------------------------------

/- A decision that was not aborted stands for an answer. -/
theorem Decision.exists_ofAnswer
    {decision : Decision}
    (hDecided : ∀ abort, decision ≠ .aborted abort) :
    ∃ answer, decision = .ofAnswer answer := by
  cases decision with
  | allowed => exact ⟨true, rfl⟩
  | denied => exact ⟨false, rfl⟩
  | aborted abort => exact absurd rfl (hDecided abort)

/- The answer that a decision stands for, if it is one. -/
theorem Decision.eq_of_ofAnswer
    {first second : Bool}
    (hSame : Decision.ofAnswer first = .ofAnswer second) :
    first = second := by
  cases first <;> cases second <;>
    first | rfl | cases hSame

namespace Engine

/- A request that is decided has been understood. -/
theorem understood_of_decided
    {engine : Engine}
    {tables : Tables}
    {bounds : Bounds}
    {request : Request}
    (hDecided : ∀ abort,
      (engine.checkWithin tables bounds request).decision ≠
        .aborted abort) :
    ∃ question, engine.Understood tables request question := by
  rw [checkWithin] at hDecided
  split at hDecided
  · next abort _ => exact absurd rfl (hDecided abort)
  · next question hUnderstand =>
      exact ⟨question, understood_of_understand hUnderstand⟩

/-
  A decision that was not aborted stands for the answer that
  can be derived from the tuples that its request sees.
-/
theorem answers_of_decision
    {engine : Engine}
    {model : Model}
    {tables : Tables}
    {bounds : Bounds}
    {request : Request}
    {user : UserRef}
    {object : ObjectRef}
    {answer : Bool}
    (hModel : engine.model = some model)
    (hUser : UserRef.parse? request.key.user = some user)
    (hObject : ObjectRef.parse? request.key.object = some object)
    (hDecision :
      (engine.checkWithin tables bounds request).decision =
        .ofAnswer answer) :
    (facts model tables request user).Answers
      (.relation [] ⟨request.key.relation, object⟩)
      answer := by
  rw [checkWithin] at hDecision
  split at hDecision
  · cases answer <;> cases hDecision
  · next question hUnderstand =>
      have hAsked := understood_of_understand hUnderstand
      rcases question with
        ⟨schema, asked, ⟨relation, place⟩, contextual, txid⟩
      rcases hAsked.model with ⟨loaded, hLoaded, hSchema⟩
      have hAsker := hAsked.user
      have hPlace := hAsked.object
      have hRelation := hAsked.relation
      dsimp only at hSchema hAsker hPlace hRelation
      rw [hModel] at hLoaded
      rw [hUser] at hAsker
      rw [hObject] at hPlace
      cases hLoaded
      cases hAsker
      cases hPlace
      subst hSchema
      subst hRelation
      apply (hAsked.reflects bounds).answers_evaluate
      refine ⟨{}, ?_⟩
      rw [Engine.answer] at hDecision
      dsimp only at hDecision
      split at hDecision
      · next found hOutcome =>
          rw [Decision.eq_of_ofAnswer hDecision] at hOutcome
          exact hOutcome
      · cases answer <;> cases hDecision

/-
  Two checks of one key that see the same tuples under one
  model come to the same decision, unless one of them is
  aborted.
-/
theorem decision_eq_of_visibleTuples_eq
    {first second : Engine}
    {tables others : Tables}
    {bounds limits : Bounds}
    {request another : Request}
    (hModel : first.model = second.model)
    (hKey : request.key = another.key)
    (hTuples :
      visibleTuples tables request =
        visibleTuples others another)
    (hFirst : ∀ abort,
      (first.checkWithin tables bounds request).decision ≠
        .aborted abort)
    (hSecond : ∀ abort,
      (second.checkWithin others limits another).decision ≠
        .aborted abort) :
    (first.checkWithin tables bounds request).decision =
      (second.checkWithin others limits another).decision := by
  rcases understood_of_decided hFirst with
    ⟨question, hAsked⟩
  rcases hAsked.model with ⟨model, hLoaded, _⟩
  rcases Decision.exists_ofAnswer hFirst with
    ⟨answer, hAnswer⟩
  rcases Decision.exists_ofAnswer hSecond with
    ⟨other, hOther⟩
  have hFirstAnswers :=
    answers_of_decision hLoaded hAsked.user hAsked.object
      hAnswer
  have hSecondAnswers :=
    answers_of_decision (hModel ▸ hLoaded)
      (hKey ▸ hAsked.user) (hKey ▸ hAsked.object) hOther
  rw [facts, hKey, hTuples] at hFirstAnswers
  rw [hAnswer, hOther, hFirstAnswers.unique hSecondAnswers]

end Engine

------------------------------------------------------------
-- An Example
------------------------------------------------------------

/-
  Documents whose viewers are their editors, except for those
  who are blocked. The viewers of a document may be editors.
-/
namespace Documents

def schema : Schema :=
  { version := utf8 "1.1"
    types :=
      [{ name := utf8 "doc"
         relations :=
           [{ name := utf8 "blocked"
              rule := .direct [.plain (utf8 "user")] },
            { name := utf8 "editor"
              rule := .direct
                [.plain (utf8 "user"),
                  .userset (utf8 "doc") (utf8 "viewer")] },
            { name := utf8 "viewer"
              rule := .exclusion (.computed (utf8 "editor"))
                (.computed (utf8 "blocked")) }] }] }

def model : Model :=
  { id := []
    version := []
    schema := schema
    source := []
    active := true
    created := 0 }

def engine : Engine :=
  { model := some model }

def readme : ObjectRef :=
  ⟨utf8 "doc", utf8 "readme"⟩

def alice : UserRef :=
  { object := ⟨utf8 "user", utf8 "alice"⟩ }

def viewers : UserRef :=
  { object := readme, relation := some (utf8 "viewer") }

/- A user who is an editor of the document. -/
def edits (user : UserRef) : TupleKey.Parts :=
  ⟨user, utf8 "editor", readme⟩

/- The viewers are editors themselves. -/
def tables : Tables :=
  { tuples :=
      [{ id := [49]
         parts := edits viewers
         created := 1
         deleted := none
         time := 0 }]
    last := 1 }

/- Whether Alice may view the document if she is an editor. -/
def request : Request :=
  { key := ⟨alice.text, utf8 "viewer", readme.text⟩
    contextual := [(edits alice).key] }

/- The same with all tuples in the request, one of them twice. -/
def contextual : Request :=
  { request with
    contextual :=
      [(edits alice).key, (edits viewers).key,
        (edits alice).key] }

def wide : Bounds :=
  { maxDepth := 25
    maxExpansions := 100
    expired := fun _ => false }

def narrow : Bounds :=
  { maxDepth := 3
    maxExpansions := 5
    expired := fun look => look = 9 }

theorem edits_alice_check :
    (edits alice).key.check = .ok (edits alice) := by
  decide +kernel

theorem edits_viewers_check :
    (edits viewers).key.check = .ok (edits viewers) := by
  decide +kernel

theorem visibleTuples_request :
    Engine.visibleTuples tables request =
      { edits viewers, edits alice } := by
  have hTxid : Engine.snapshot tables request = .ok 1 := rfl
  ext parts
  rw [Engine.visibleTuples, Set.mem_ofPred_eq, hTxid]
  simp [tables, request, StoredTuple.VisibleAt,
    edits_alice_check, eq_comm (b := parts)]

theorem visibleTuples_contextual :
    Engine.visibleTuples {} contextual =
      { edits viewers, edits alice } := by
  ext parts
  simp [Engine.visibleTuples, contextual, edits_alice_check,
    edits_viewers_check, eq_comm, or_comm]

theorem wide_decision :
    (engine.checkWithin tables wide request).decision =
      .allowed := by
  decide +kernel

theorem narrow_decision :
    (engine.checkWithin {} narrow contextual).decision =
      .allowed := by
  decide +kernel

/- Two ways to bring the same tuples come to one decision. -/
theorem decision_eq :
    (engine.checkWithin tables wide request).decision =
      (engine.checkWithin {} narrow contextual).decision := by
  have hModel : engine.model = engine.model := rfl
  have hKey : request.key = contextual.key := rfl
  have hTuples :
      Engine.visibleTuples tables request =
        Engine.visibleTuples {} contextual := by
    rw [visibleTuples_request, visibleTuples_contextual]
  have hWide : ∀ abort,
      (engine.checkWithin tables wide request).decision ≠
        .aborted abort := by
    rw [wide_decision]
    exact fun _ => Decision.noConfusion
  have hNarrow : ∀ abort,
      (engine.checkWithin {} narrow contextual).decision ≠
        .aborted abort := by
    rw [narrow_decision]
    exact fun _ => Decision.noConfusion
  exact Engine.decision_eq_of_visibleTuples_eq hModel hKey
    hTuples hWide hNarrow

end Documents

end Rebac
