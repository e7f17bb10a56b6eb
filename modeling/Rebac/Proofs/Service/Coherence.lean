import Rebac.Proofs.Cache.Faithful
import Rebac.Proofs.Cache.Key
import Rebac.Proofs.Check.Visible
import Rebac.Proofs.Service.Run
import Rebac.Proofs.Store.Models
import Rebac.Proofs.Store.Write

/-
  This file proves that a service never answers from its
  cache what its engine would not decide itself.

  A decision that is kept is the answer that can be derived
  from the live tuples. When these change, or the model does,
  all decisions are forgotten.

  Key definitions include:
    * `Engine.Derives`
    * `Service.Fresh`
    * `Service.Justifies`
    * `Service.Coherent`
    * `Service.Agrees`

  Key theorems include:
    * `Service.Coherent.perform`
    * `Service.agrees_of_run`
-/

namespace Rebac

open PermissionCache

------------------------------------------------------------
-- Answers
------------------------------------------------------------

namespace Engine

variable {engine other : Engine}
variable {tables others : Tables}
variable {bounds : Bounds}
variable {request : Request}
variable {key : TupleKey}
variable {answer : Bool}

/-
  A key has an answer: it can be read under the model of the
  engine, and the answer can be derived from the tuples of
  the latest snapshot.
-/
def Derives
    (engine : Engine)
    (tables : Tables)
    (key : TupleKey)
    (answer : Bool) : Prop :=
  ∃ model user object,
    engine.model = some model ∧
      UserRef.parse? key.user = some user ∧
      ObjectRef.parse? key.object = some object ∧
      (facts model tables { key := key } user).Answers
        (.relation [] ⟨key.relation, object⟩) answer

/- A request about the latest state sees what its key sees. -/
theorem visibleTuples_of_cacheable
    (hCacheable : Service.Cacheable request) :
    visibleTuples tables request =
      visibleTuples tables { key := request.key } := by
  rcases request with ⟨key, txid, contextual, deadline⟩
  rcases hCacheable with ⟨rfl, rfl⟩
  rfl

/- What is decided about the latest state is derived. -/
theorem derives_of_decision
    (hCacheable : Service.Cacheable request)
    (hDecision :
      (engine.checkWithin tables bounds request).decision =
        .ofAnswer answer) :
    engine.Derives tables request.key answer := by
  have hDecided : ∀ abort,
      (engine.checkWithin tables bounds request).decision ≠
        .aborted abort := by
    intro abort
    rw [hDecision]
    cases answer <;> exact Decision.noConfusion
  rcases understood_of_decided hDecided with
    ⟨question, hAsked⟩
  rcases hAsked.model with ⟨model, hModel, _⟩
  refine ⟨model, question.user, question.node.object, hModel,
    hAsked.user, hAsked.object, ?_⟩
  have hAnswers :=
    answers_of_decision hModel hAsked.user hAsked.object
      hDecision
  rw [facts, visibleTuples_of_cacheable hCacheable] at hAnswers
  exact hAnswers

/- What is derived is decided, unless a check is aborted. -/
theorem Derives.decides
    (hDerives : engine.Derives tables request.key answer)
    (hCacheable : Service.Cacheable request)
    (hDecided : ∀ abort,
      (engine.checkWithin tables bounds request).decision ≠
        .aborted abort) :
    (engine.checkWithin tables bounds request).decision =
      .ofAnswer answer := by
  rcases Decision.exists_ofAnswer hDecided with
    ⟨found, hFound⟩
  rcases derives_of_decision hCacheable hFound with
    ⟨model, user, object, hModel, hUser, hObject, hAnswers⟩
  rcases hDerives with
    ⟨_, _, _, hLoaded, hReader, hPlace, hDerived⟩
  rw [hModel] at hLoaded
  rw [hUser] at hReader
  rw [hObject] at hPlace
  cases hLoaded
  cases hReader
  cases hPlace
  rw [hFound, hAnswers.unique hDerived]

/- Answers depend on the model and the visible tuples only. -/
theorem Derives.congr
    (hDerives : engine.Derives tables key answer)
    (hModel : other.model = engine.model)
    (hTuples :
      visibleTuples others { key := key } =
        visibleTuples tables { key := key }) :
    other.Derives others key answer := by
  rcases hDerives with
    ⟨model, user, object, hLoaded, hUser, hObject, hAnswers⟩
  refine ⟨model, user, object, hModel.trans hLoaded, hUser,
    hObject, ?_⟩
  rw [facts, hTuples]
  exact hAnswers

/- The latest snapshot can be read where its number is kept. -/
theorem snapshot_latest_iff
    {txid : Int} :
    snapshot tables { key := key } = .ok txid ↔
      .sequence ∉ tables.missing ∧ tables.last = txid := by
  simp only [snapshot, Tables.lastTxid, Tables.require]
  by_cases hMissing : .sequence ∈ tables.missing
  · simp [hMissing, Except.map]
  · simp [hMissing, Except.map]

/- The latest snapshot shows the live tuples. -/
theorem mem_visibleTuples_latest_iff
    {parts : TupleKey.Parts}
    (hTimely : tables.Timely) :
    parts ∈ visibleTuples tables { key := key } ↔
      .sequence ∉ tables.missing ∧
        ∃ tuple ∈ tables.tuples,
          tuple.Live ∧ tuple.parts = parts := by
  simp only [visibleTuples, Set.mem_ofPred_eq,
    snapshot_latest_iff, List.not_mem_nil, false_and,
    exists_false, or_false]
  constructor
  · rintro ⟨_, ⟨hMissing, rfl⟩, tuple, hTuple, hVisible, hParts⟩
    exact ⟨hMissing, tuple, hTuple,
      (hTimely.visibleAt_iff hTuple).mp hVisible, hParts⟩
  · rintro ⟨hMissing, tuple, hTuple, hLive, hParts⟩
    exact ⟨tables.last, ⟨hMissing, rfl⟩, tuple, hTuple,
      (hTimely.visibleAt_iff hTuple).mpr hLive, hParts⟩

/-
  Where the same tuples are live, the same ones are seen in
  the latest snapshot, whatever its number.
-/
theorem visibleTuples_congr
    (hTimely : tables.Timely)
    (hLater : others.Timely)
    (hTuples : others.tuples = tables.tuples)
    (hMissing : others.missing = tables.missing) :
    visibleTuples others { key := key } =
      visibleTuples tables { key := key } := by
  ext parts
  rw [mem_visibleTuples_latest_iff hLater,
    mem_visibleTuples_latest_iff hTimely, hTuples, hMissing]

end Engine

------------------------------------------------------------
-- Coherence
------------------------------------------------------------

namespace Service

variable {Shared : Type} [SharedCache Shared]
variable {Works : Shared → Prop}
variable {laws : SharedCache.Laws Shared}
variable {service : Service Shared}
variable {now : Int}

/-
  A decision that may be kept under a text: every key without
  bars that has this text has this answer.
-/
def Justifies
    (service : Service Shared)
    (text : Bytes)
    (allowed : Bool) : Prop :=
  ∀ key : TupleKey, key.NoBar → keyText key = text →
    service.engine.Derives service.tables key allowed

/-
  A service whose tuples name no later transaction, and whose
  cache only keeps what is justified.
-/
structure Coherent
    (laws : SharedCache.Laws Shared)
    (Works : Shared → Prop)
    (service : Service Shared) : Prop where
  idle : service.store.database.saved = none
  timely : service.tables.Timely
  usable : ∀ cache ∈ service.cache, cache.Usable Works
  faithful : ∀ cache ∈ service.cache,
    cache.Faithful laws service.Justifies

/- A service without tuples, whose cache keeps nothing yet. -/
structure Fresh
    (laws : SharedCache.Laws Shared)
    (Works : Shared → Prop)
    (service : Service Shared) : Prop where
  idle : service.store.database.saved = none
  tuples : service.tables.tuples = []
  last : service.tables.last = 0
  usable : ∀ cache ∈ service.cache, cache.Usable Works
  near : ∀ cache ∈ service.cache, cache.near.entries = []
  shared : ∀ cache ∈ service.cache, ∀ shared ∈ cache.shared,
    ∀ text value,
      ¬ laws.Holds shared (cache.settings.keyStart ++ text) value

theorem Fresh.coherent
    (hFresh : service.Fresh laws Works) :
    service.Coherent laws Works where
  idle := hFresh.idle
  timely :=
    { last := by
        rw [hFresh.last]
        decide
      created := by
        rw [hFresh.tuples]
        exact fun _ hTuple => absurd hTuple List.not_mem_nil
      deleted := by
        rw [hFresh.tuples]
        exact fun _ hTuple => absurd hTuple List.not_mem_nil }
  usable := hFresh.usable
  faithful cache hCache :=
    { near := by
        rw [hFresh.near cache hCache]
        exact fun _ hEntry => absurd hEntry List.not_mem_nil
      shared := fun shared hShared text value hHolds =>
        absurd hHolds
          (hFresh.shared cache hCache shared hShared text value) }

------------------------------------------------------------
-- Checks
------------------------------------------------------------

variable {request : Request}

@[simp] theorem lookUp_store :
    (service.lookUp now request).2.store = service.store := by
  rw [lookUp]
  split
  · rfl
  · split <;> rfl

@[simp] theorem lookUp_engine :
    (service.lookUp now request).2.engine = service.engine := by
  rw [lookUp]
  split
  · rfl
  · split <;> rfl

@[simp] theorem remember_store {decision : Decision} :
    (service.remember now request decision).store =
      service.store := by
  unfold remember
  split
  · split <;> rfl
  · rfl

@[simp] theorem remember_engine {decision : Decision} :
    (service.remember now request decision).engine =
      service.engine := by
  unfold remember
  split
  · split <;> rfl
  · rfl

/- A check answers what it finds in the cache. -/
theorem check_of_found
    {allowed : Bool}
    {source : Source}
    {after : Service Shared}
    (hLookUp :
      service.lookUp now request =
        (some (allowed, source), after)) :
    let response : Response :=
      { verdict := { decision := .ofAnswer allowed }
        source := some source }
    service.check now request =
      (response, after.note now request response) := by
  rw [check, hLookUp]

/- Otherwise it remembers what the engine decides. -/
theorem check_of_none
    {after : Service Shared}
    (hLookUp : service.lookUp now request = (none, after)) :
    let verdict := after.engine.check after.tables now request
    let response : Response := { verdict := verdict }
    service.check now request =
      (response,
        (after.remember now request verdict.decision).note
          now request response) := by
  rw [check, hLookUp]

/- A lookup keeps a service coherent. -/
theorem Coherent.lookUp
    (hReliable : SharedCache.Reliable Works)
    (hCoherent : service.Coherent laws Works) :
    (service.lookUp now request).2.Coherent laws Works := by
  rw [Service.lookUp]
  split
  · exact hCoherent
  · next cache hCache =>
      split
      · have hLookup := lookup_get now request.key cache
        refine ⟨hCoherent.idle, hCoherent.timely, ?_, ?_⟩
        · rintro _ ⟨⟩
          exact (hCoherent.usable cache hCache).lookup hReliable
            hLookup
        · rintro _ ⟨⟩
          exact (hCoherent.faithful cache hCache).lookup hLookup
      · exact hCoherent

/- A decision that is found is justified. -/
theorem Coherent.justifies_of_lookUp
    {allowed : Bool}
    {source : Source}
    (hCoherent : service.Coherent laws Works)
    (hFound :
      (service.lookUp now request).1 = some (allowed, source)) :
    Cacheable request ∧
      service.Justifies (keyText request.key) allowed := by
  rw [Service.lookUp] at hFound
  split at hFound
  · cases hFound
  · next cache hCache =>
      split at hFound
      · next hCacheable =>
          have hLookup := lookup_get now request.key cache
          rw [show (cache.get now request.key).1 =
            some (allowed, source) from hFound] at hLookup
          exact ⟨hCacheable,
            (hCoherent.faithful cache hCache).right_of_lookup
              hLookup⟩
      · cases hFound

/- What was decided about the latest state is justified. -/
omit [SharedCache Shared] in
theorem justifies_of_decision
    {bounds : Bounds}
    {allowed : Bool}
    (hCacheable : Cacheable request)
    (hDecision :
      (service.engine.checkWithin service.tables bounds
        request).decision = .ofAnswer allowed) :
    service.Justifies (keyText request.key) allowed := by
  intro key hNoBar hText
  rw [← eq_of_keyText_eq hNoBar hText.symm]
  exact Engine.derives_of_decision hCacheable hDecision

/- Keeping a justified decision keeps a service coherent. -/
theorem Coherent.set
    {allowed : Bool}
    (hReliable : SharedCache.Reliable Works)
    (hCoherent : service.Coherent laws Works)
    (hJustifies :
      service.Justifies (keyText request.key) allowed) :
    (service.changeCache fun cache =>
      cache.set now request.key allowed).Coherent laws Works := by
  refine ⟨hCoherent.idle, hCoherent.timely, ?_, ?_⟩
  · intro after hAfter
    rcases Option.map_eq_some_iff.mp hAfter with
      ⟨cache, hCache, rfl⟩
    exact (hCoherent.usable cache hCache).set hReliable allowed
  · intro after hAfter
    rcases Option.map_eq_some_iff.mp hAfter with
      ⟨cache, hCache, rfl⟩
    exact (hCoherent.faithful cache hCache).set hJustifies

/- Keeping what the engine decided keeps it coherent, too. -/
theorem Coherent.remember
    {bounds : Bounds}
    (hReliable : SharedCache.Reliable Works)
    (hCoherent : service.Coherent laws Works) :
    (service.remember now request
      (service.engine.checkWithin service.tables bounds
        request).decision).Coherent laws Works := by
  unfold Service.remember
  split
  · next hCacheable =>
      split
      · exact hCoherent
      · next hAllowed =>
          exact hCoherent.set hReliable
            (justifies_of_decision hCacheable hAllowed)
      · next hDenied =>
          exact hCoherent.set hReliable
            (justifies_of_decision hCacheable hDenied)
  · exact hCoherent

/- Counting and recording do not matter. -/
theorem Coherent.note
    {response : Response}
    (hCoherent : service.Coherent laws Works) :
    (service.note now request response).Coherent laws Works :=
  ⟨hCoherent.idle, hCoherent.timely, hCoherent.usable,
    hCoherent.faithful⟩

theorem Coherent.check
    (hReliable : SharedCache.Reliable Works)
    (hCoherent : service.Coherent laws Works) :
    (service.check now request).2.Coherent laws Works := by
  have hLooked : (service.lookUp now request).2.Coherent
      laws Works :=
    hCoherent.lookUp hReliable
  rcases hLookUp : service.lookUp now request with
    ⟨_ | ⟨allowed, source⟩, after⟩
  · rw [check_of_none hLookUp]
    rw [hLookUp] at hLooked
    exact (hLooked.remember hReliable).note
  · rw [check_of_found hLookUp]
    rw [hLookUp] at hLooked
    exact hLooked.note

theorem Coherent.checkAll
    (hReliable : SharedCache.Reliable Works)
    (hCoherent : service.Coherent laws Works)
    (requests : List Request) :
    (service.checkAll now requests).2.Coherent laws Works := by
  induction requests generalizing service with
  | nil => exact hCoherent
  | cons request others hOthers =>
      exact hOthers (hCoherent.check hReliable)

------------------------------------------------------------
-- Changes
------------------------------------------------------------

/-
  What the cache keeps stays justified in a store with the
  same tuples.
-/
theorem Coherent.of_store
    {store : Store}
    (hCoherent : service.Coherent laws Works)
    (hIdle : store.database.saved = none)
    (hTimely : store.tables.Timely)
    (hTuples : store.tables.tuples = service.tables.tuples)
    (hMissing : store.tables.missing = service.tables.missing) :
    ({ service with store := store } : Service Shared).Coherent
      laws Works where
  idle := hIdle
  timely := hTimely
  usable := hCoherent.usable
  faithful cache hCache := by
    refine (hCoherent.faithful cache hCache).mono ?_
    intro text allowed hJustifies key hNoBar hText
    refine (hJustifies key hNoBar hText).congr rfl ?_
    exact Engine.visibleTuples_congr hCoherent.timely hTimely
      hTuples hMissing

/- A service whose cache was just emptied is coherent. -/
theorem coherent_of_emptied
    {change : PermissionCache Shared → PermissionCache Shared}
    (hIdle : service.store.database.saved = none)
    (hTimely : service.tables.Timely)
    (hChange : ∀ cache ∈ service.cache,
      (change cache).Usable Works ∧
        (change cache).Faithful laws service.Justifies) :
    (service.changeCache change).Coherent laws Works := by
  refine ⟨hIdle, hTimely, ?_, ?_⟩
  · intro after hAfter
    rcases Option.map_eq_some_iff.mp hAfter with
      ⟨cache, hCache, rfl⟩
    exact (hChange cache hCache).1
  · intro after hAfter
    rcases Option.map_eq_some_iff.mp hAfter with
      ⟨cache, hCache, rfl⟩
    exact (hChange cache hCache).2

theorem Coherent.record
    {entry : AuditRecord}
    (hCoherent : service.Coherent laws Works) :
    (service.record entry).Coherent laws Works :=
  ⟨hCoherent.idle, hCoherent.timely, hCoherent.usable,
    hCoherent.faithful⟩

theorem Coherent.count
    {change : Statistics → Statistics}
    (hCoherent : service.Coherent laws Works) :
    (service.count change).Coherent laws Works :=
  ⟨hCoherent.idle, hCoherent.timely, hCoherent.usable,
    hCoherent.faithful⟩

/-
  A batch that changes tuples empties the cache, and any
  other one leaves the live tuples as they are.
-/
theorem Coherent.write
    (hReliable : SharedCache.Reliable Works)
    (hCoherent : service.Coherent laws Works)
    (writes deletes : List TupleKey) :
    (service.write now writes deletes).2.Coherent
      laws Works := by
  rcases hRun :
      (Store.write now writes deletes).run service.store with
    ⟨result, store⟩
  rcases Store.write_steady hCoherent.idle hCoherent.timely
    hRun with ⟨hIdle, hMissing, hTimely⟩
  unfold Service.write onStore
  rw [hRun]
  cases result with
  | error error =>
      have hSame : store.tables = service.tables := by
        rw [Store.tables, Store.write_error hCoherent.idle hRun]
        rfl
      refine hCoherent.of_store hIdle hTimely ?_ hMissing
      rw [hSame]
  | ok receipt =>
      dsimp only
      split
      · refine Coherent.record (Coherent.count ?_)
        refine coherent_of_emptied hIdle hTimely ?_
        intro cache hCache
        exact (hCoherent.usable cache hCache).invalidateAll
          hReliable
      · next hUnchanged =>
          have hSame :=
            Store.write_idle hCoherent.idle hRun
              (Nat.eq_zero_of_not_pos hUnchanged)
          refine Coherent.record (Coherent.count ?_)
          refine hCoherent.of_store hIdle hTimely ?_ hMissing
          rw [hSame]
          rfl

/- A model that is used from now on starts with no decision. -/
theorem Coherent.use
    {model : Model}
    (hReliable : SharedCache.Reliable Works)
    (hCoherent : service.Coherent laws Works) :
    (service.use now model).Coherent laws Works := by
  refine Coherent.record ?_
  refine coherent_of_emptied hCoherent.idle hCoherent.timely ?_
  intro cache hCache
  exact (hCoherent.usable cache hCache).clear hReliable

/- Actions on models leave the tuples as they are. -/
theorem Coherent.onStore
    {Result : Type}
    {action : Store.Action Result}
    (hCoherent : service.Coherent laws Works)
    (hAction : ∀ {Keeps : Tables → Prop},
      (∀ tables models, Keeps tables →
        Keeps { tables with models := models }) →
      action.Preserves (Store.Within none Keeps)) :
    (service.onStore action).2.Coherent laws Works := by
  have hKept :
      Store.Within none
        (fun tables =>
          tables.Timely ∧ tables.tuples = service.tables.tuples ∧
            tables.missing = service.tables.missing)
        (action.run service.store).2 := by
    refine hAction ?_ service.store
      ⟨hCoherent.idle, hCoherent.timely, rfl, rfl⟩
    rintro tables models ⟨hTimely, hTuples, hMissing⟩
    exact ⟨⟨hTimely.last, hTimely.created, hTimely.deleted⟩,
      hTuples, hMissing⟩
  rcases hKept with ⟨hIdle, hTimely, hTuples, hMissing⟩
  exact hCoherent.of_store hIdle hTimely hTuples hMissing

theorem Coherent.writeModel
    (hReliable : SharedCache.Reliable Works)
    (hCoherent : service.Coherent laws Works)
    (source : Bytes)
    (activate : Bool) :
    (service.writeModel now source activate).2.Coherent
      laws Works := by
  have hStored :=
    hCoherent.onStore fun hModels =>
      Store.createModel_preserves hModels now source activate
  unfold Service.writeModel
  rcases hRun :
      service.onStore (Store.createModel now source activate) with
    ⟨error | creation, after⟩
  · rw [hRun] at hStored
    exact hStored
  · rw [hRun] at hStored
    dsimp only
    split
    · exact hStored.record
    · split
      · exact hStored.record.use hReliable
      · exact hStored.record

theorem Coherent.activateModel
    (hReliable : SharedCache.Reliable Works)
    (hCoherent : service.Coherent laws Works)
    (id : Bytes) :
    (service.activateModel now id).2.Coherent laws Works := by
  have hStored :=
    hCoherent.onStore fun hModels =>
      Store.activateModel_preserves hModels id
  unfold Service.activateModel
  rcases hRun :
      service.onStore (Store.activateModel id) with
    ⟨error | model, after⟩
  · rw [hRun] at hStored
    exact hStored
  · rw [hRun] at hStored
    exact hStored.use hReliable

------------------------------------------------------------
-- Runs
------------------------------------------------------------

/- Every operation keeps a service coherent. -/
theorem Coherent.perform
    (hReliable : SharedCache.Reliable Works)
    (hCoherent : service.Coherent laws Works)
    (operation : Operation) :
    (service.perform now operation).2.Coherent laws Works := by
  cases operation with
  | check request => exact hCoherent.check hReliable
  | checkAll requests => exact hCoherent.checkAll hReliable requests
  | write writes deletes =>
      exact hCoherent.write hReliable writes deletes
  | writeModel source activate =>
      exact hCoherent.writeModel hReliable source activate
  | activateModel id => exact hCoherent.activateModel hReliable id
  | read request => exact hCoherent
  | listObjects user relation type size token => exact hCoherent
  | listUsers object relation types size token => exact hCoherent
  | readModel version => exact hCoherent
  | listModels => exact hCoherent
  | readChanges since limit => exact hCoherent
  | readStatistics => exact hCoherent

/-
  A response agrees with a service: if it comes from the
  cache, it is what the engine decides about the request,
  unless that evaluation is aborted.
-/
def Agrees
    (now : Int)
    (service : Service Shared)
    (request : Request)
    (response : Response) : Prop :=
  response.source.isSome →
    (∀ abort,
      (service.engine.check service.tables now request).decision ≠
        .aborted abort) →
    response.verdict.decision =
      (service.engine.check service.tables now request).decision

/- A coherent service agrees with its engine. -/
theorem Coherent.agrees
    (hCoherent : service.Coherent laws Works)
    (hNoBar : request.key.NoBar) :
    Agrees now service request
      (service.check now request).1 := by
  intro hSource hDecided
  rcases hLookUp : service.lookUp now request with
    ⟨_ | ⟨allowed, source⟩, after⟩
  · rw [check_of_none hLookUp] at hSource
    cases hSource
  · rw [check_of_found hLookUp]
    rcases hCoherent.justifies_of_lookUp
        (congrArg Prod.fst hLookUp) with
      ⟨hCacheable, hJustifies⟩
    exact ((hJustifies request.key hNoBar rfl).decides
      hCacheable hDecided).symm

/- A check changes neither the store nor the engine. -/
theorem check_keeps
    (now : Int)
    (request : Request)
    (service : Service Shared) :
    (service.check now request).2.store = service.store ∧
      (service.check now request).2.engine =
        service.engine := by
  have hStore :
      (service.lookUp now request).2.store = service.store :=
    lookUp_store
  have hEngine :
      (service.lookUp now request).2.engine = service.engine :=
    lookUp_engine
  rcases hLookUp : service.lookUp now request with
    ⟨_ | ⟨allowed, source⟩, after⟩
  · rw [check_of_none hLookUp]
    rw [hLookUp] at hStore hEngine
    exact ⟨remember_store.trans hStore,
      remember_engine.trans hEngine⟩
  · rw [check_of_found hLookUp]
    rw [hLookUp] at hStore hEngine
    exact ⟨hStore, hEngine⟩

/- So all responses to a batch agree with the service. -/
theorem Coherent.agreesAll
    (hReliable : SharedCache.Reliable Works)
    (hCoherent : service.Coherent laws Works)
    {requests : List Request}
    (hNoBar : ∀ request ∈ requests, request.key.NoBar) :
    List.Forall₂ (Agrees now service) requests
      (service.checkAll now requests).1 := by
  induction requests generalizing service with
  | nil => exact .nil
  | cons request others hOthers =>
      refine .cons
        (hCoherent.agrees (hNoBar request List.mem_cons_self)) ?_
      have hChecked :
          (service.check now request).2.Coherent laws Works :=
        hCoherent.check hReliable
      have hRest :=
        hOthers hChecked fun other hOther =>
          hNoBar other (List.mem_cons_of_mem _ hOther)
      have hSame : Agrees now (service.check now request).2 =
          Agrees now service := by
        rcases check_keeps now request service with
          ⟨hStore, hEngine⟩
        unfold Agrees tables
        rw [hStore, hEngine]
      rw [hSame] at hRest
      exact hRest

/-
  Whatever operations a service without tuples and decisions
  has carried out: if it answers a request from its cache,
  its engine decides the same at that time, unless it aborts.
  The same holds of every request of a batch.
-/
theorem agrees_of_run
    (hReliable : SharedCache.Reliable Works)
    (hFresh : service.Fresh laws Works)
    (operations : List (Int × Operation))
    (now : Int) :
    let reached := service.run operations
    (∀ request : Request, request.key.NoBar →
      Agrees now reached request
        (reached.check now request).1) ∧
      ∀ requests : List Request,
        (∀ request ∈ requests, request.key.NoBar) →
          List.Forall₂ (Agrees now reached) requests
            (reached.checkAll now requests).1 := by
  have hCoherent :
      (service.run operations).Coherent laws Works :=
    run_invariant
      (fun now operation service hCoherent =>
        hCoherent.perform hReliable operation)
      operations hFresh.coherent
  exact ⟨fun request hNoBar => hCoherent.agrees hNoBar,
    fun requests hNoBar => hCoherent.agreesAll hReliable hNoBar⟩

end Service

------------------------------------------------------------
-- An Example
------------------------------------------------------------

namespace Documents

/- A cache in front of a keyspace, for a second's decisions. -/
def cache : PermissionCache Keyspace :=
  { settings :=
      { nearItems := 10
        nearLifetime := 1000
        sharedLifetime := 60
        filterItems := 10
        filterRate := 0.01
        keyStart := utf8 "authz:perm:" }
    near := Recency.empty 10 1000
    filter := Bloom.blank 64 2
    shared := some { dialect := .full } }

/- A service for documents with such a cache. -/
def service : Service Keyspace :=
  { store :=
      { database := { tables := {} }
        ids := { words := fun drawn => (UInt64.ofNat drawn, 0) } }
    engine := engine
    cache := some cache }

/- Whether Alice may view the document. -/
def question : Request :=
  { key := request.key }

/- Alice becomes an editor, and the question is asked. -/
def operations : List (Int × Service.Operation) :=
  [(0, .write [(edits alice).key] []),
    (1, .check question)]

theorem question_noBar : question.key.NoBar where
  user := by decide
  relation := by decide
  object := by decide

theorem service_fresh :
    service.Fresh Keyspace.laws fun keyspace =>
      keyspace.available = true where
  idle := rfl
  tuples := rfl
  last := rfl
  usable := by
    rintro _ ⟨⟩
    refine ⟨by decide +kernel, ?_⟩
    rintro _ ⟨⟩
    rfl
  near := by
    rintro _ ⟨⟩
    rfl
  shared := by
    rintro _ ⟨⟩ _ ⟨⟩ text value hHolds
    exact absurd hHolds List.not_mem_nil

/- Later on the answer is found in the keyspace, and right. -/
theorem shared_decision :
    ((service.run operations).check 5000 question).1.source =
        some .shared ∧
      ((service.run operations).check 5000
          question).1.verdict.decision =
        ((service.run operations).engine.check
          (service.run operations).tables 5000
          question).decision := by
  have hSource :
      ((service.run operations).check 5000 question).1.source =
        some .shared := by
    decide +kernel
  have hAllowed :
      ((service.run operations).engine.check
        (service.run operations).tables 5000 question).decision =
        .allowed := by
    decide +kernel
  refine ⟨hSource, ?_⟩
  refine (Service.agrees_of_run Keyspace.reliable service_fresh
    operations 5000).1 question question_noBar ?_ ?_
  · rw [hSource]
    rfl
  · rw [hAllowed]
    exact fun _ => Decision.noConfusion

end Documents

end Rebac
