import Rebac.Proofs.Check.Calls
import Rebac.Proofs.Check.Visible

/-
  This file proves that checks come to an end, and how deep
  they go.

  The recursion of an evaluation is described without levels
  to count down: it goes from a node to the nodes that its
  rule asks for, and turns back at nodes of its own path. So
  a path is a list of different nodes, all of which are among
  the finitely many that can be met at all. There is an end
  to it, whether or not there is a limit to its depth.

  Key definitions include:
    * `Scene.Guard`
    * `Scene.Ends`
    * `Facts.Descends`
    * `Scene.terms`
    * `Engine.Returns`
    * `Engine.pairs`

  Key theorems include:
    * `Scene.Ends.unique`
    * `Scene.exists_ends`
    * `Scene.ends_evaluate`
    * `Scene.Ends.keeps`
    * `Engine.returns_within_pairs`
-/

namespace Rebac

------------------------------------------------------------
-- The Recursion
------------------------------------------------------------

namespace Scene

/- What is looked at before anything else at a depth. -/
abbrev Guard :=
  (depth : Nat) → Meter → Except Interruption Unit × Meter

/-
  The evaluation of a node below a path ends, and what it
  comes to. The guard may stop it at any depth or never. A
  rule is evaluated with the help of the nodes that it asks
  for, whose own evaluations have to end.
-/
inductive Ends
    (scene : Scene)
    (guard : Guard) :
    (path : List Node) → Node → Meter →
      Except Interruption Bool × Meter → Prop where
  | refused {path : List Node} {node : Node}
      {meter after : Meter} {interruption : Interruption}
      (hGuard : guard path.length meter =
        (.error interruption, after)) :
      Ends scene guard path node meter
        (.error interruption, after)
  | undefined {path : List Node} {node : Node}
      {meter after : Meter}
      (hGuard : guard path.length meter = (.ok (), after))
      (hFind : scene.schema.find?
        node.object.type node.relation = none) :
      Ends scene guard path node meter (.ok false, after)
  | repeated {path : List Node} {node : Node}
      {meter after : Meter}
      {definition : RelationDefinition}
      (hGuard : guard path.length meter = (.ok (), after))
      (hFind : scene.schema.find?
        node.object.type node.relation = some definition)
      (hPath : node ∈ path) :
      Ends scene guard path node meter (.ok false, after)
  | followed {path : List Node} {node : Node}
      {meter after : Meter}
      {definition : RelationDefinition}
      (ask : Node → Evaluation)
      (hGuard : guard path.length meter = (.ok (), after))
      (hFind : scene.schema.find?
        node.object.type node.relation = some definition)
      (hPath : node ∉ path)
      (hAsk : ∀ other, scene.Asks node definition.rule other →
        ∀ before, Ends scene guard (node :: path) other before
          (ask other before)) :
      Ends scene guard path node meter
        (scene.evaluateRule ask node definition.rule after)

variable {scene : Scene}
variable {guard : Guard}
variable {path : List Node}
variable {node : Node}
variable {meter : Meter}

/-
  An evaluation comes to one thing only. The induction is on
  one of two derivations.
-/
theorem Ends.unique
    {first second : Except Interruption Bool × Meter}
    (hFirst : scene.Ends guard path node meter first)
    (hSecond : scene.Ends guard path node meter second) :
    first = second := by
  induction hFirst generalizing second with
  | refused hGuard =>
      cases hSecond with
      | refused hOther =>
          rw [hGuard] at hOther
          cases hOther
          rfl
      | undefined hOther => simp [hGuard] at hOther
      | repeated hOther => simp [hGuard] at hOther
      | followed _ hOther => simp [hGuard] at hOther
  | undefined hGuard hFind =>
      cases hSecond with
      | refused hOther => simp [hGuard] at hOther
      | undefined hOther =>
          rw [hGuard] at hOther
          cases hOther
          rfl
      | repeated _ hFound => simp [hFind] at hFound
      | followed _ _ hFound => simp [hFind] at hFound
  | repeated hGuard hFind hPath =>
      cases hSecond with
      | refused hOther => simp [hGuard] at hOther
      | undefined _ hFound => simp [hFind] at hFound
      | repeated hOther =>
          rw [hGuard] at hOther
          cases hOther
          rfl
      | followed _ _ _ hFresh => exact absurd hPath hFresh
  | followed ask hGuard hFind hPath _ ih =>
      cases hSecond with
      | refused hOther => simp [hGuard] at hOther
      | undefined _ hFound => simp [hFind] at hFound
      | repeated _ _ hAgain => exact absurd hAgain hPath
      | followed another hOther hFound _ hAnother =>
          rw [hGuard] at hOther
          rw [hFind] at hFound
          cases hOther
          cases hFound
          rw [evaluateRule_congr]
          intro other hAsks
          funext before
          exact ih other hAsks before
            (hAnother other hAsks before)

end Scene

------------------------------------------------------------
-- Paths
------------------------------------------------------------

namespace Facts

/-
  A path of different nodes that can be met from an object,
  and a node that it may lead to.
-/
structure Descends
    (facts : Facts)
    (start : ObjectRef)
    (path : List Node)
    (node : Node) : Prop where
  nodup : path.Nodup
  reached : ∀ above ∈ path, above ∈ facts.reach start
  object : node.object = start ∨
    node.object ∈ facts.userObjects

variable {facts : Facts}
variable {start : ObjectRef}
variable {path : List Node}
variable {node : Node}

theorem descends_nil (node : Node) :
    facts.Descends node.object [] node where
  nodup := List.nodup_nil
  reached := List.forall_mem_nil _
  object := .inl rfl

/- A rule leads on, unless its node is met again. -/
theorem Descends.child
    (hDescends : facts.Descends start path node)
    (hDefines : facts.Defines node)
    (hPath : node ∉ path)
    {rule : Rule}
    {subtracted : Bool}
    {other : Node}
    (hRefers : facts.Refers node rule subtracted other) :
    facts.Descends start (node :: path) other where
  nodup := List.nodup_cons.mpr ⟨hPath, hDescends.nodup⟩
  reached := List.forall_mem_cons.mpr
    ⟨⟨hDefines, hDescends.object⟩, hDescends.reached⟩
  object := by
    rcases hRefers.object_eq_or_mem with hSame | hUser
    · rw [hSame]
      exact hDescends.object
    · exact .inr hUser

open Classical in
/- A path is no longer than there are nodes to be met. -/
theorem Descends.length_le
    (hDescends : facts.Descends start path node)
    (hFinite : (facts.reach start).Finite) :
    path.length ≤ (facts.reach start).ncard := by
  have hSubset : (path.toFinset : Set Node) ⊆
      facts.reach start := by
    intro above hAbove
    exact hDescends.reached above
      (List.mem_toFinset.mp hAbove)
  have hCard := Set.ncard_le_ncard hSubset hFinite
  rwa [Set.ncard_coe_finset,
    List.toFinset_card_of_nodup hDescends.nodup] at hCard

end Facts

------------------------------------------------------------
-- Termination
------------------------------------------------------------

namespace Scene

variable {scene : Scene}
variable {start : ObjectRef}
variable {path : List Node}
variable {node : Node}

theorem defines_of_find
    {definition : RelationDefinition}
    (hFind : scene.schema.find?
      node.object.type node.relation = some definition) :
    scene.facts.Defines node := by
  intro hNone
  rw [show scene.facts.schema = scene.schema from rfl, hFind]
    at hNone
  cases hNone

/-
  Whatever the guard, evaluation ends. The induction is on
  the number of nodes that can still be met on the path.
-/
theorem exists_ends
    (hFinite : (scene.facts.reach start).Finite)
    (hDescends : scene.facts.Descends start path node)
    (guard : Guard)
    (meter : Meter) :
    ∃ result, scene.Ends guard path node meter result := by
  induction hLeft :
      (scene.facts.reach start).ncard - path.length
      using Nat.strongRecOn generalizing path node meter with
  | ind left ih =>
      cases hGuard : guard path.length meter with
      | mk outcome after =>
          cases outcome with
          | error interruption => exact ⟨_, .refused hGuard⟩
          | ok entered =>
              cases hFind : scene.schema.find?
                  node.object.type node.relation with
              | none => exact ⟨_, .undefined hGuard hFind⟩
              | some definition =>
                  by_cases hPath : node ∈ path
                  · exact ⟨_, .repeated hGuard hFind hPath⟩
                  · have hBelow : ∀ other,
                        scene.Asks node definition.rule other →
                        ∀ before, ∃ result,
                          scene.Ends guard (node :: path) other
                            before result := by
                      intro other hAsks before
                      rcases hAsks with ⟨subtracted, hRefers⟩
                      have hChild := hDescends.child
                        (defines_of_find hFind) hPath hRefers
                      have hLength := hChild.length_le hFinite
                      rw [List.length_cons] at hLength
                      -- A longer path leaves fewer nodes.
                      refine ih _ ?_ hChild before rfl
                      rw [List.length_cons]
                      omega
                    have hSome :
                        Nonempty
                          (Except Interruption Bool × Meter) :=
                      ⟨(.ok false, meter)⟩
                    choose! ask hAsk using hBelow
                    exact ⟨_, .followed ask hGuard hFind hPath
                      hAsk⟩

------------------------------------------------------------
-- Levels
------------------------------------------------------------

/- The guard that the limits of a scene stand for. -/
def entry (scene : Scene) : Guard :=
  fun depth meter => meter.enter scene.bounds depth

theorem enter_of_too_deep
    {bounds : Bounds}
    {depth : Nat}
    (hDepth : bounds.maxDepth < depth)
    (meter : Meter) :
    meter.enter bounds depth =
      (.error .maxDepth,
        { meter with deepest := max meter.deepest depth }) :=
  if_pos hDepth

/-
  Counting down levels from the greatest depth comes to the
  same as the recursion without levels. The induction is on
  the levels.
-/
theorem ends_evaluate
    {levels : Nat}
    (hLevels : levels + path.length = scene.bounds.maxDepth + 1)
    (meter : Meter) :
    scene.Ends scene.entry path node meter
      (scene.evaluate levels path node meter) := by
  induction levels generalizing path node meter with
  | zero =>
      have hDeep : scene.bounds.maxDepth < path.length := by
        omega
      rw [evaluate, ← hLevels, Nat.zero_add,
        enter_of_too_deep hDeep]
      exact .refused (enter_of_too_deep hDeep meter)
  | succ levels ih =>
      have hDepth : scene.bounds.maxDepth - levels =
          path.length := by
        omega
      rw [evaluate, hDepth]
      cases hEnter : meter.enter scene.bounds path.length with
      | mk outcome after =>
          cases outcome with
          | error interruption => exact .refused hEnter
          | ok entered =>
              dsimp only
              cases hFind : scene.schema.find?
                  node.object.type node.relation with
              | none => exact .undefined hEnter hFind
              | some definition =>
                  dsimp only
                  by_cases hPath : node ∈ path
                  · rw [if_pos hPath]
                    exact .repeated hEnter hFind hPath
                  · rw [if_neg hPath]
                    refine .followed _ hEnter hFind hPath ?_
                    intro other _ before
                    apply ih
                    rw [List.length_cons]
                    omega

------------------------------------------------------------
-- Depth
------------------------------------------------------------

/- What a step at a depth does to a meter. -/
theorem enter_spec
    {bounds : Bounds}
    {depth : Nat}
    {meter after : Meter}
    {outcome : Except Interruption Unit}
    (hEnter : meter.enter bounds depth = (outcome, after)) :
    after.deepest = max meter.deepest depth ∧
      (outcome = .ok () → depth ≤ bounds.maxDepth) ∧
      (outcome = .error .maxDepth → bounds.maxDepth < depth) := by
  by_cases hDeep : bounds.maxDepth < depth
  · rw [enter_of_too_deep hDeep] at hEnter
    cases hEnter
    exact ⟨rfl, nofun, fun _ => hDeep⟩
  · rw [Meter.enter, if_neg hDeep] at hEnter
    split at hEnter <;> cases hEnter
    · exact ⟨rfl, nofun, nofun⟩
    · exact ⟨rfl, fun _ => Nat.le_of_not_lt hDeep, nofun⟩

/-
  No depth is reached beyond the number of nodes that can be
  met, nor beyond the first one that is too great; and what
  is interrupted for its depth can meet more nodes than the
  greatest depth.
-/
def terms
    (scene : Scene)
    (start : ObjectRef) : Evaluation.Terms where
  Kept meter :=
    meter.deepest ≤
      min (scene.facts.reach start).ncard
        (scene.bounds.maxDepth + 1)
  Excused interruption :=
    interruption = .maxDepth →
      scene.bounds.maxDepth < (scene.facts.reach start).ncard
  charged hKept := hKept
  storage := nofun
  expansions := nofun

theorem kept_of_entry
    {meter after : Meter}
    {outcome : Except Interruption Unit}
    (hFinite : (scene.facts.reach start).Finite)
    (hDescends : scene.facts.Descends start path node)
    (hDepth : path.length ≤ scene.bounds.maxDepth + 1)
    (hKept : (scene.terms start).Kept meter)
    (hEntry :
      scene.entry path.length meter = (outcome, after)) :
    (scene.terms start).Kept after := by
  have hLength := hDescends.length_le hFinite
  have hDeepest : meter.deepest ≤ _ := hKept
  change after.deepest ≤ _
  rw [(enter_spec hEntry).1]
  omega

/-
  An evaluation keeps to these terms. The induction is on its
  derivation.
-/
theorem Ends.keeps
    {meter : Meter}
    {result : Except Interruption Bool × Meter}
    (hEnds : scene.Ends scene.entry path node meter result)
    (hFinite : (scene.facts.reach start).Finite)
    (hDescends : scene.facts.Descends start path node)
    (hDepth : path.length ≤ scene.bounds.maxDepth + 1)
    (hKept : (scene.terms start).Kept meter) :
    (scene.terms start).Kept result.2 ∧
      (scene.terms start).Accepts result.1 := by
  induction hEnds with
  | refused hEntry =>
      refine ⟨kept_of_entry hFinite hDescends hDepth hKept
        hEntry, ?_⟩
      intro interruption hFound hMaxDepth
      have hLength := hDescends.length_le hFinite
      -- The path alone has more nodes than the depth allows.
      cases hFound
      subst hMaxDepth
      have hDeep := (enter_spec hEntry).2.2 rfl
      omega
  | undefined hEntry =>
      exact ⟨kept_of_entry hFinite hDescends hDepth hKept
        hEntry, nofun⟩
  | repeated hEntry =>
      exact ⟨kept_of_entry hFinite hDescends hDepth hKept
        hEntry, nofun⟩
  | @followed _ node _ _ definition ask hEntry hFind hPath _ ih =>
      have hRoom := (enter_spec hEntry).2.1 rfl
      have hRule : (scene.terms start).Agree
          (scene.evaluateRule ask node definition.rule)
          (scene.evaluateRule ask node definition.rule) := by
        apply agree_evaluateRule
        intro other hAsks before hBefore
        refine ⟨rfl, ih other hAsks before ?_ ?_ hBefore⟩
        · rcases hAsks with ⟨subtracted, hRefers⟩
          exact hDescends.child (defines_of_find hFind) hPath
            hRefers
        · rw [List.length_cons]
          omega
      exact (hRule _ (kept_of_entry hFinite hDescends hDepth
        hKept hEntry)).2

end Scene

------------------------------------------------------------
-- Checks
------------------------------------------------------------

namespace Engine

/- The verdict on a question whose evaluation has ended. -/
def Question.conclude
    (question : Question)
    (result : Except Interruption Bool × Meter) : Verdict :=
  { decision :=
      match result.1 with
      | .ok answer => .ofAnswer answer
      | .error interruption => .aborted (.interrupted interruption)
    txid := question.txid
    expansions := result.2.expansions
    depth := result.2.deepest }

/-
  A check returns a verdict: it aborts what it does not
  understand, and its evaluation ends.
-/
def Returns
    (engine : Engine)
    (tables : Tables)
    (bounds : Bounds)
    (guard : Scene.Guard)
    (request : Request)
    (verdict : Verdict) : Prop :=
  match engine.understand tables request with
  | .error abort => verdict = { decision := .aborted abort }
  | .ok question =>
      ∃ result,
        (scene tables bounds question).Ends guard []
            question.node {} result ∧
          verdict = question.conclude result

/-
  The pairs of a relation and an object whose type has it,
  where the object is that of the request or of the user of a
  visible tuple.
-/
def pairs
    (engine : Engine)
    (tables : Tables)
    (request : Request) : Set Node :=
  { node |
    ∃ model object,
      engine.model = some model ∧
        ObjectRef.parse? request.key.object = some object ∧
        model.schema.find?
            node.object.type node.relation ≠ none ∧
        (node.object = object ∨
          ∃ parts ∈ visibleTuples tables request,
            parts.user.object = node.object) }

variable {engine : Engine}
variable {tables : Tables}
variable {bounds : Bounds}
variable {request : Request}
variable {question : Question}

/- A request sees finitely many tuples, so there is an end. -/
theorem finite_pairs
    (engine : Engine)
    (tables : Tables)
    (request : Request) :
    (engine.pairs tables request).Finite := by
  cases hModel : engine.model with
  | none =>
      refine Set.finite_empty.subset ?_
      intro node hNode
      rcases hNode with ⟨model, _, hLoaded, _⟩
      rw [hModel] at hLoaded
      cases hLoaded
  | some model =>
      cases hObject : ObjectRef.parse? request.key.object with
      | none =>
          refine Set.finite_empty.subset ?_
          intro node hNode
          rcases hNode with ⟨_, object, _, hParsed, _⟩
          rw [hObject] at hParsed
          cases hParsed
      | some object =>
          have hFinite :
              ((facts model tables request
                { object := object }).reach object).Finite :=
            Facts.finite_reach
              (finite_visibleTuples tables request) object
          refine hFinite.subset ?_
          intro node hNode
          rcases hNode with
            ⟨_, _, hLoaded, hParsed, hDefines, hPlace⟩
          rw [hModel] at hLoaded
          rw [hObject] at hParsed
          cases hLoaded
          cases hParsed
          exact ⟨hDefines, hPlace⟩

/- What an evaluation can meet are pairs of its request. -/
theorem Understood.reach_subset
    (hAsked : engine.Understood tables request question)
    (bounds : Bounds) :
    (scene tables bounds question).facts.reach
        question.node.object ⊆
      engine.pairs tables request := by
  rcases hAsked.model with ⟨model, hModel, hSchema⟩
  intro node hNode
  rcases hNode with ⟨hDefines, hPlace⟩
  refine ⟨model, question.node.object, hModel, hAsked.object,
    hSchema ▸ hDefines, ?_⟩
  rcases hPlace with hSame | hUser
  · exact .inl hSame
  · rcases hUser with ⟨parts, hParts, hObject⟩
    rcases hParts with ⟨users, hUsers, hMem⟩
    have hVisible :=
      ((hAsked.reflects bounds).mem_users hUsers parts.user).mp
        hMem
    exact .inr ⟨parts, hVisible, hObject⟩

/- A request that makes no sense has not been evaluated. -/
theorem readContextual_ne_interrupted
    (keys : List TupleKey)
    (interruption : Interruption) :
    readContextual keys ≠ .error (.interrupted interruption) := by
  intro hRead
  induction keys with
  | nil => cases hRead
  | cons key others ih =>
      rw [readContextual] at hRead
      split at hRead
      · cases hRead
      · cases hOthers : readContextual others with
        | error abort =>
            rw [hOthers] at hRead
            cases hRead
            exact ih hOthers
        | ok rest =>
            rw [hOthers] at hRead
            cases hRead

theorem snapshot_ne_interrupted (interruption : Interruption) :
    snapshot tables request ≠
      .error (.interrupted interruption) := by
  intro hSnapshot
  unfold snapshot at hSnapshot
  split at hSnapshot
  · cases hSnapshot
  · split at hSnapshot <;> cases hSnapshot

theorem understand_ne_interrupted
    (interruption : Interruption) :
    engine.understand tables request ≠
      .error (.interrupted interruption) := by
  intro hUnderstand
  rw [understand] at hUnderstand
  split at hUnderstand
  · cases hUnderstand
  dsimp only at hUnderstand
  split at hUnderstand
  · cases hUnderstand
  split at hUnderstand
  · cases hUnderstand
  split at hUnderstand
  · cases hUnderstand
  split at hUnderstand
  · cases hUnderstand
  split at hUnderstand
  · next abort hRead =>
      cases hUnderstand
      exact readContextual_ne_interrupted _ interruption hRead
  · cases hSnapshot : snapshot tables request with
    | error abort =>
        rw [hSnapshot] at hUnderstand
        cases hUnderstand
        exact snapshot_ne_interrupted interruption hSnapshot
    | ok txid =>
        rw [hSnapshot] at hUnderstand
        cases hUnderstand

/- Only an interruption is told as one. -/
theorem Question.interrupted_of_conclude
    {result : Except Interruption Bool × Meter}
    {interruption : Interruption}
    (hDecision : (question.conclude result).decision =
      .aborted (.interrupted interruption)) :
    result.1 = .error interruption := by
  unfold Question.conclude at hDecision
  dsimp only at hDecision
  split at hDecision
  · next answer _ => cases answer <;> cases hDecision
  · next found hFound =>
      cases hDecision
      exact hFound

/-
  Whatever stops an evaluation at some depth, or nothing, a
  check returns one verdict. Its depth is at most the number
  of pairs, and at most one more than the greatest depth; and
  where there are no more pairs than that, it is not aborted
  because of its depth.
-/
theorem returns_within_pairs
    (engine : Engine)
    (tables : Tables)
    (bounds : Bounds)
    (request : Request) :
    let verdict := engine.checkWithin tables bounds request
    (∀ guard, ∃! verdict,
      engine.Returns tables bounds guard request verdict) ∧
    engine.Returns tables bounds
      (fun depth meter => meter.enter bounds depth) request
      verdict ∧
    verdict.depth ≤
      min (engine.pairs tables request).ncard
        (bounds.maxDepth + 1) ∧
    ((engine.pairs tables request).ncard ≤ bounds.maxDepth →
      verdict.decision ≠
        .aborted (.interrupted .maxDepth)) := by
  unfold Returns checkWithin
  cases hUnderstand : engine.understand tables request with
  | error abort =>
      refine ⟨fun _ => ⟨_, rfl, fun _ hOther => hOther⟩, rfl,
        Nat.zero_le _, ?_⟩
      intro _ hDecision
      cases hDecision
      exact understand_ne_interrupted .maxDepth hUnderstand
  | ok question =>
      have hAsked := understood_of_understand hUnderstand
      have hSubset := hAsked.reach_subset bounds
      have hPairs := finite_pairs engine tables request
      have hFinite := hPairs.subset hSubset
      have hCard := Set.ncard_le_ncard hSubset hPairs
      have hDescends :
          (scene tables bounds question).facts.Descends
            question.node.object [] question.node :=
        Facts.descends_nil question.node
      have hEnds : (scene tables bounds question).Ends
          (scene tables bounds question).entry [] question.node
          {} _ :=
        Scene.ends_evaluate rfl {}
      have hKeeps := hEnds.keeps hFinite hDescends
        (Nat.zero_le _) (Nat.zero_le _)
      have hDepth : (answer tables bounds question).depth ≤
          min _ (bounds.maxDepth + 1) :=
        hKeeps.1
      refine ⟨?_, ⟨_, hEnds, rfl⟩, ?_, ?_⟩
      · -- A guard decides how it ends, but not whether.
        intro guard
        rcases Scene.exists_ends hFinite hDescends guard {} with
          ⟨result, hResult⟩
        refine ⟨_, ⟨result, hResult, rfl⟩, ?_⟩
        intro other hOther
        rcases hOther with ⟨another, hAnother, rfl⟩
        rw [hAnother.unique hResult]
      · exact hDepth.trans (min_le_min_right _ hCard)
      · intro hRoom hDecision
        have hInterrupted :=
          Question.interrupted_of_conclude hDecision
        have hNodes : bounds.maxDepth < _ :=
          hKeeps.2 .maxDepth hInterrupted rfl
        omega

end Engine

------------------------------------------------------------
-- An Example
------------------------------------------------------------

namespace Documents

/- The relations of a document are all that can be met. -/
theorem pairs_subset :
    engine.pairs tables request ⊆
      { ⟨utf8 "blocked", readme⟩, ⟨utf8 "editor", readme⟩,
        ⟨utf8 "viewer", readme⟩ } := by
  have hObject :
      ObjectRef.parse? request.key.object = some readme := by
    decide +kernel
  intro node hNode
  rcases hNode with
    ⟨_, _, hModel, hParsed, hDefines, hPlace⟩
  rw [hObject] at hParsed
  cases hModel
  cases hParsed
  have hRelation : node.relation ∈
      (Engine.facts model tables request alice).relationNames :=
    Facts.Defines.relation_mem hDefines
  have hReadme : node.object = readme := by
    rcases hPlace with hSame | ⟨parts, hParts, hUser⟩
    · exact hSame
    · rw [visibleTuples_request] at hParts
      rcases hParts with rfl | rfl
      · exact hUser.symm
      · -- No type is named like that of Alice.
        rw [← hUser] at hDefines
        exact absurd rfl hDefines
  rcases node with ⟨relation, object⟩
  dsimp only at hReadme hRelation
  subst hReadme
  simpa [Facts.relationNames, Engine.facts, model, schema]
    using hRelation

theorem ncard_pairs_le :
    (engine.pairs tables request).ncard ≤ 3 := by
  refine (Set.ncard_le_ncard pairs_subset
    (Set.toFinite _)).trans ?_
  refine (Set.ncard_insert_le _ _).trans (Nat.succ_le_succ ?_)
  refine (Set.ncard_insert_le _ _).trans (Nat.succ_le_succ ?_)
  rw [Set.ncard_singleton]

/-
  Viewers are editors and editors may be viewers, but a check
  with a greatest depth of three is not aborted for that.
-/
theorem cyclic_within_three :
    let bounds : Bounds := { wide with maxDepth := 3 }
    let verdict := engine.checkWithin tables bounds request
    verdict.depth ≤ 3 ∧
      verdict.decision ≠ .aborted (.interrupted .maxDepth) := by
  intro bounds verdict
  rcases Engine.returns_within_pairs engine tables bounds
      request with
    ⟨_, _, hDepth, hDecision⟩
  have hPairs := ncard_pairs_le
  have hFew := hDepth.trans (min_le_left _ _)
  exact ⟨hFew.trans hPairs, hDecision hPairs⟩

end Documents

end Rebac
