import Rebac.Proofs.Check.Positive
import Rebac.Proofs.Check.Storage
import Rebac.Proofs.Tuple.Key

/-
  This file proves that, without exclusions, users have what
  was granted to those who they belong to.

  A group that is granted something has it for all its
  members, and a wildcard for all plain users of its type. The
  checks of the group, of its member and of what the member
  has are three evaluations with paths and limits of their
  own. Still the last one has no other choice than to allow
  it, or to stop at a limit.

  Key definitions include:
    * `Request.asking`
    * `Decision.AllowedUnlessLimited`
    * `Engine.Belongs`

  Key theorems include:
    * `Facts.extends_of_covers`
    * `Engine.Belongs.extends_facts`
    * `Engine.inherited_of_allowed`
-/

namespace Rebac

------------------------------------------------------------
-- Facts
------------------------------------------------------------

namespace Facts

variable {facts : Facts}
variable {group : UserRef}
variable {nodes : Set Node}

/-
  A user has no less than another one, if the tuples that
  stand for that one stand for the user or for a group that
  the user is in.
-/
theorem extends_of_covers
    (hCovers : ∀ assigned : UserRef, assigned.Covers group →
      assigned.Covers facts.user ∨
        ∃ node ∈ nodes, assigned.group? = some node) :
    facts.Extends { facts with user := group } nodes where
  schema := rfl
  direct hDirect := by
    rw [Holds] at hDirect ⊢
    rcases hDirect with
      ⟨assigned, hUsers, hAdmits, hGroup⟩ | hMember
    · rcases hCovers assigned hGroup with
        hUser | ⟨node, hNode, hMember⟩
      · exact .inl ⟨assigned, hUsers, hAdmits, hUser⟩
      · exact .inr
          ⟨node, ⟨assigned, hUsers, hAdmits, hMember⟩, hNode⟩
    · exact .inr hMember
  targets {_ _ _} _ hTarget := hTarget

end Facts

/- Only a group itself stands for a group. -/
theorem UserRef.eq_of_covers
    {assigned group : UserRef}
    {relation : Bytes}
    (hGroup : group.relation = some relation)
    (hCovers : assigned.Covers group) :
    assigned = group := by
  rcases hCovers with rfl | ⟨_, hPlain, _⟩
  · rfl
  · rw [hGroup] at hPlain
    cases hPlain

/- Only a wildcard stands for a wildcard. -/
theorem UserRef.covers_of_wildcard
    {assigned group user : UserRef}
    (hGroup : group.IsWildcard)
    (hPlain : user.relation = none)
    (hType : user.object.type = group.object.type)
    (hCovers : assigned.Covers group) :
    assigned.Covers user := by
  rcases hCovers with rfl | ⟨hWildcard, _, hSame⟩
  · exact .inr ⟨hGroup, hPlain, hType⟩
  · exact .inr ⟨hWildcard, hPlain, hType.trans hSame⟩

------------------------------------------------------------
-- Requests
------------------------------------------------------------

/- The same request about another key. -/
def Request.asking
    (request : Request)
    (key : TupleKey) : Request :=
  { request with key := key }

/-
  Whether a decision allows, or could not be made because of
  the depth, the number of tuples or the time.
-/
def Decision.AllowedUnlessLimited (decision : Decision) : Prop :=
  decision = .allowed ∨
    ∃ interruption, interruption ≠ .storage ∧
      decision = .aborted (.interrupted interruption)

namespace Engine

variable {engine : Engine}
variable {model : Model}
variable {tables : Tables}
variable {bounds memberBounds groupBounds : Bounds}
variable {request : Request}
variable {question : Question}
variable {group member : UserRef}
variable {user : Bytes}

/-
  Whether a user belongs to a group: the user is found to be
  one of its members, or it is the wildcard that stands for
  all plain users of the user's type.
-/
def Belongs
    (engine : Engine)
    (tables : Tables)
    (bounds : Bounds)
    (request : Request)
    (user : Bytes)
    (group : UserRef) : Prop :=
  match group.relation with
  | some relation =>
      (engine.checkWithin tables bounds
        (request.asking
          ⟨user, relation, group.object.text⟩)).decision =
        .allowed
  | none =>
      group.IsWildcard ∧
        ∃ member, UserRef.parse? user = some member ∧
          member.relation = none ∧
            member.object.type = group.object.type

/- A question that is understood can be asked for any user. -/
theorem understand_asking
    (hUnderstand :
      engine.understand tables request = .ok question)
    (hUser : UserRef.parse? user = some member) :
    engine.understand tables
        (request.asking { request.key with user := user }) =
      .ok { question with user := member } := by
  have hSnapshot :
      snapshot tables
          (request.asking { request.key with user := user }) =
        snapshot tables request := rfl
  unfold understand at hUnderstand ⊢
  rw [hSnapshot]
  dsimp only [Request.asking] at hUnderstand ⊢
  rw [hUser]
  split at hUnderstand
  · cases hUnderstand
  · split at hUnderstand
    · cases hUnderstand
    · split at hUnderstand
      · cases hUnderstand
      · split at hUnderstand
        · cases hUnderstand
        · next hType =>
            rw [if_neg hType]
            split at hUnderstand
            · cases hUnderstand
            · next hRelation =>
                rw [if_neg hRelation]
                split at hUnderstand
                · cases hUnderstand
                · cases hTxid : snapshot tables request with
                  | error abort =>
                      rw [hTxid] at hUnderstand
                      cases hUnderstand
                  | ok txid =>
                      rw [hTxid] at hUnderstand
                      cases hUnderstand
                      rfl

/- A question has an answer, or its evaluation is interrupted. -/
theorem answer_cases
    (tables : Tables)
    (bounds : Bounds)
    (question : Question) :
    (∃ found, (answer tables bounds question).decision =
        .ofAnswer found) ∨
      ∃ interruption, (answer tables bounds question).decision =
        .aborted (.interrupted interruption) := by
  rw [answer]
  dsimp only
  split
  · next found _ => exact .inl ⟨found, rfl⟩
  · next interruption _ => exact .inr ⟨interruption, rfl⟩

------------------------------------------------------------
-- Members
------------------------------------------------------------

/- Who belongs to a group is a user. -/
theorem Belongs.exists_member
    (hBelongs :
      engine.Belongs tables bounds request user group) :
    ∃ member, UserRef.parse? user = some member := by
  unfold Belongs at hBelongs
  split at hBelongs
  · rcases understood_of_allowed hBelongs with ⟨_, hAsked⟩
    exact ⟨_, hAsked.user⟩
  · rcases hBelongs with ⟨_, member, hUser, _⟩
    exact ⟨member, hUser⟩

/-
  Who belongs to a group has no less than the group. Where a
  tuple stands for the group, the user is found in it.
-/
theorem Belongs.extends_facts
    (hBelongs :
      engine.Belongs tables bounds request user group)
    (hModel : engine.model = some model)
    (hPositive : model.schema.Positive)
    (hGroup : UserRef.parse? request.key.user = some group)
    (hUser : UserRef.parse? user = some member) :
    (facts model tables request member).Extends
      (facts model tables request group)
      ((facts model tables request member).flat
        hPositive).fixpoint := by
  refine Facts.extends_of_covers fun assigned hCovers => ?_
  unfold Belongs at hBelongs
  split at hBelongs
  · next relation hRelation =>
      have hObject := UserRef.parse?_object hGroup
      have hTrue :
          (engine.checkWithin tables bounds
            (request.asking
              ⟨user, relation, group.object.text⟩)).decision =
            .ofAnswer true := hBelongs
      have hMember :=
        (mem_flat_iff hModel hPositive hUser hObject hTrue).mpr rfl
      refine .inr ⟨⟨relation, group.object⟩, hMember, ?_⟩
      rw [UserRef.eq_of_covers hRelation hCovers,
        UserRef.group?, hRelation]
      rfl
  · rcases hBelongs with
      ⟨hWildcard, found, hFound, hPlain, hType⟩
    rw [hUser] at hFound
    cases hFound
    exact .inl
      (UserRef.covers_of_wildcard hWildcard hPlain hType hCovers)

/-
  Where no rule has an exclusion, what a check allows to a
  group it allows to all who belong to the group, unless it is
  aborted because of a limit. The limits of the checks may all
  be different.
-/
theorem inherited_of_allowed
    {source : Bytes}
    (hModel : engine.model = some model)
    (hCompiled : (compile source).schema? = some model.schema)
    (hPositive : model.schema.Positive)
    (hGroup : UserRef.parse? request.key.user = some group)
    (hBelongs :
      engine.Belongs tables memberBounds request user group)
    (hAllowed :
      (engine.checkWithin tables groupBounds request).decision =
        .allowed) :
    (engine.checkWithin tables bounds
      (request.asking
        { request.key with
          user := user })).decision.AllowedUnlessLimited := by
  rcases hBelongs.exists_member with ⟨member, hUser⟩
  cases hUnderstand : engine.understand tables request with
  | error abort =>
      rw [checkWithin, hUnderstand] at hAllowed
      cases hAllowed
  | ok question =>
      have hAsked := understood_of_understand hUnderstand
      have hTrue :
          (engine.checkWithin tables groupBounds request).decision =
            .ofAnswer true := hAllowed
      have hHolds :=
        (mem_flat_iff hModel hPositive hGroup hAsked.object
          hTrue).mpr rfl
      have hInherited :=
        (hBelongs.extends_facts hModel hPositive hGroup
          hUser).fixpoint_subset hPositive hHolds
      have hDecision :
          (engine.checkWithin tables bounds
              (request.asking
                { request.key with user := user })).decision =
            (answer tables bounds
              { question with user := member }).decision := by
        rw [checkWithin, understand_asking hUnderstand hUser]
      rcases answer_cases tables bounds
          { question with user := member } with
        ⟨found, hFound⟩ | ⟨interruption, hStopped⟩
      · have hObject :
            ObjectRef.parse?
                (request.asking
                  { request.key with user := user }).key.object =
              some question.node.object := hAsked.object
        have hFoundTrue : found = true :=
          (mem_flat_iff hModel hPositive hUser hObject
            (hDecision.trans hFound)).mp hInherited
        subst hFoundTrue
        exact .inl (hDecision.trans hFound)
      · refine .inr ⟨interruption, ?_, hDecision.trans hStopped⟩
        rintro rfl
        rcases hAsked.model with ⟨loaded, hLoaded, hSchema⟩
        rw [hModel] at hLoaded
        cases hLoaded
        rw [checkWithin, hUnderstand] at hAllowed
        rw [← hSchema] at hCompiled
        have hReadable :=
          readable_of_allowed (wellFormed_of_compile hCompiled)
            hAllowed
        exact answer_ne_storage hReadable hStopped

end Engine

------------------------------------------------------------
-- An Example
------------------------------------------------------------

namespace Teams

open Documents (readme alice wide)

/- The document is shown to all users. -/
def published : TupleKey :=
  ⟨utf8 "user:*", utf8 "viewer", readme.text⟩

/- What is asked, with the document shown to all users. -/
def shown : Request :=
  { request with contextual := [published] }

/- Whether all developers may view the document. -/
def developers : Request :=
  contextual.asking
    ⟨(members dev).text, utf8 "viewer", readme.text⟩

/-
  Alice, who is in the core team, may view what developers may
  view, and what is shown to all users.
-/
theorem alice_inherits :
    (engine.checkWithin {} wide
        developers).decision = .allowed ∧
      (engine.checkWithin {} wide
        contextual).decision.AllowedUnlessLimited ∧
      (engine.checkWithin {} wide
        (shown.asking published)).decision = .allowed ∧
      (engine.checkWithin {} wide
        shown).decision.AllowedUnlessLimited := by
  have hModel : engine.model = some model := rfl
  have hCompiled :
      (compile source).schema? = some model.schema :=
    source_compiled
  have hDevelopers :
      UserRef.parse? developers.key.user = some (members dev) := by
    decide +kernel
  have hEveryone :
      UserRef.parse? (shown.asking published).key.user =
        some { object := ⟨utf8 "user", wildcardId⟩ } := by
    decide +kernel
  have hAlice : UserRef.parse? alice.text = some alice := by
    decide +kernel
  have hFound :
      (engine.checkWithin {} wide
        (developers.asking
          ⟨alice.text, utf8 "member", dev.text⟩)).decision =
        .allowed := by
    decide +kernel
  have hMember :
      engine.Belongs {} wide developers alice.text
        (members dev) :=
    hFound
  have hPlain :
      engine.Belongs {} wide (shown.asking published)
        alice.text { object := ⟨utf8 "user", wildcardId⟩ } :=
    ⟨⟨rfl, rfl⟩, alice, hAlice, rfl, rfl⟩
  have hGroup :
      (engine.checkWithin {} wide
        developers).decision = .allowed := by
    decide +kernel
  have hShown :
      (engine.checkWithin {} wide
        (shown.asking published)).decision = .allowed := by
    decide +kernel
  have hContextual :
      developers.asking
          { developers.key with user := alice.text } =
        contextual :=
    rfl
  have hRequest :
      (shown.asking published).asking
          { (shown.asking published).key with
            user := alice.text } =
        shown :=
    rfl
  refine ⟨hGroup, ?_, hShown, ?_⟩
  · rw [← hContextual]
    exact Engine.inherited_of_allowed hModel hCompiled
      schema_positive hDevelopers hMember hGroup
  · rw [← hRequest]
    exact Engine.inherited_of_allowed hModel hCompiled
      schema_positive hEveryone hPlain hShown

end Teams

end Rebac
