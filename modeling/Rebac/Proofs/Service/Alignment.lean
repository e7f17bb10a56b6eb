import Rebac.Proofs.Service.Coherence
import Rebac.Proofs.Store.Activation

/-
  This file proves that the engine of a service always uses
  the active model of its store.

  Which model is active is kept twice: as a flag in the store
  and in the engine. Operations may fail in between, and so
  may statements of the store. The engine still has a model
  exactly when the store has an active one, and the same.

  Key definitions include:
    * `Service.Matched`
    * `Service.Undisturbed`
    * `Service.Event`
    * `Service.handle`
    * `Service.Reachable`
    * `Service.Aligned`

  Key theorems include:
    * `Service.Matched.handle`
    * `Service.aligned_of_reachable`
-/

namespace Rebac

namespace Service

variable {Shared : Type}
variable {service after : Service Shared}

------------------------------------------------------------
-- Models in Use
------------------------------------------------------------

/- A service without rows in its store or a model in its engine. -/
structure Blank (service : Service Shared) : Prop where
  store : service.store.Blank
  models : service.tables.models = []
  engine : service.engine.model = none

/-
  The model that became active last is the one of the engine,
  and it is stored as active.
-/
structure Matched (service : Service Shared) : Prop where
  steady : service.store.Steady
  catalog : service.tables.Catalog
    (service.engine.model.map Model.id)
  loaded : ∀ model ∈ service.engine.model,
    model.active = true ∧ service.tables.Stores model

theorem Blank.matched
    (hBlank : service.Blank) :
    service.Matched := by
  refine ⟨hBlank.store.steady, ?_, ?_⟩
  · rw [hBlank.engine]
    refine .empty ?_ hBlank.models
    rw [tables, hBlank.store.missing]
    exact List.not_mem_nil
  · rw [hBlank.engine]
    exact nofun

/- Only the store and the model of the engine matter. -/
theorem Matched.congr
    (hMatched : service.Matched)
    (hStore : after.store = service.store)
    (hModel : after.engine.model = service.engine.model) :
    after.Matched := by
  refine ⟨hStore ▸ hMatched.steady, ?_, ?_⟩
  · rw [tables, hStore, hModel]
    exact hMatched.catalog
  · rw [tables, hStore, hModel]
    exact hMatched.loaded

/- A service after something happened to its store. -/
def disturb
    (event : Store.Event)
    (service : Service Shared) : Service Shared :=
  { service with store := service.store.perform event }

/- An event that activates no model leaves the engine right. -/
theorem Matched.disturb
    (hMatched : service.Matched)
    (event : Store.Event)
    (hNone : service.store.activated? event = none) :
    (service.disturb event).Matched := by
  rcases Store.catalog_perform event hMatched.steady
      hMatched.catalog with ⟨hCatalog, hRetains⟩
  rw [hNone, Option.none_or] at hCatalog
  refine ⟨hMatched.steady.perform event, hCatalog, ?_⟩
  intro model hModel
  rcases hMatched.loaded model hModel with ⟨hActive, hStores⟩
  exact ⟨hActive, hRetains.stores hStores⟩

/- An event that activates a model has the engine use it. -/
theorem Matched.activated
    {event : Store.Event}
    {model : Model}
    (hMatched : service.Matched)
    (hActivated :
      service.store.activated? event = some model.id)
    (hActive : model.active = true)
    (hStores :
      (service.store.perform event).tables.Stores model)
    (hStore : after.store = service.store.perform event)
    (hModel : after.engine.model = some model) :
    after.Matched := by
  have hCatalog :=
    (Store.catalog_perform event hMatched.steady
      hMatched.catalog).1
  rw [hActivated, Option.some_or] at hCatalog
  refine ⟨?_, ?_, ?_⟩
  · rw [hStore]
    exact hMatched.steady.perform event
  · rw [tables, hStore, hModel]
    exact hCatalog
  · rw [tables, hStore, hModel]
    rintro _ ⟨⟩
    exact ⟨hActive, hStores⟩

/- The model that a service starts with is the one it uses. -/
theorem Matched.start
    (hMatched : service.Matched) :
    service.start.2.Matched := by
  have hActive : service.tables.activeModel =
      .ok service.engine.model :=
    hMatched.catalog.activeModel_eq hMatched.loaded
  rw [Service.start, hActive]
  cases hModel : service.engine.model with
  | none => exact hMatched
  | some model => exact hMatched.congr rfl hModel.symm

/- The active row is that of the model in use. -/
theorem Matched.activeRows_eq
    (hMatched : service.Matched) :
    service.tables.models.filter StoredModel.active =
      service.engine.model.toList.map Model.row :=
  hMatched.catalog.activeRows_eq hMatched.loaded

/- The engine, the active rows and the cache are the same. -/
structure Undisturbed
    (before after : Service Shared) : Prop where
  engine : after.engine = before.engine
  rows :
    after.tables.models.filter StoredModel.active =
      before.tables.models.filter StoredModel.active
  cache : after.cache = before.cache

/- Where the engine is the same, so are the active rows. -/
theorem Matched.undisturbed
    (hMatched : service.Matched)
    (hAfter : after.Matched)
    (hEngine : after.engine = service.engine)
    (hCache : after.cache = service.cache) :
    service.Undisturbed after where
  engine := hEngine
  rows := by
    rw [hAfter.activeRows_eq, hEngine, hMatched.activeRows_eq]
  cache := hCache

------------------------------------------------------------
-- Operations
------------------------------------------------------------

variable [SharedCache Shared]

/- A batch of tuples acts on the store and on no model. -/
theorem write_keeps
    (now : Int)
    (writes deletes : List TupleKey)
    (service : Service Shared) :
    (service.write now writes deletes).2.store =
        service.store.perform (.write now writes deletes) ∧
      (service.write now writes deletes).2.engine =
        service.engine := by
  unfold write onStore
  rw [Store.perform]
  rcases (Store.write now writes deletes).run service.store with
    ⟨error | receipt, after⟩
  · exact ⟨rfl, rfl⟩
  · dsimp only
    split <;> exact ⟨rfl, rfl⟩

theorem checkAll_keeps
    (now : Int)
    (requests : List Request)
    (service : Service Shared) :
    (service.checkAll now requests).2.store = service.store ∧
      (service.checkAll now requests).2.engine =
        service.engine := by
  induction requests generalizing service with
  | nil => exact ⟨rfl, rfl⟩
  | cons request others hOthers =>
      rcases check_keeps now request service with
        ⟨hStore, hEngine⟩
      rcases hOthers (service.check now request).2 with
        ⟨hRestStore, hRestEngine⟩
      exact ⟨hRestStore.trans hStore, hRestEngine.trans hEngine⟩

/-
  Storing a model acts on the store. The engine and the cache
  stay as they are, or a model was stored and activated and
  the engine uses it.
-/
theorem writeModel_cases
    (now : Int)
    (source : Bytes)
    (activate : Bool)
    (service : Service Shared) :
    let event := Store.Event.createModel now source activate
    let after := (service.writeModel now source activate).2
    after.store = service.store.perform event ∧
      (service.store.activated? event = none ∧
          after.engine = service.engine ∧
            after.cache = service.cache ∨
        ∃ compilation model,
          ((Store.createModel now source activate).run
              service.store).1 =
            .ok ⟨compilation, some model⟩ ∧
          activate = true ∧
            service.store.activated? event = some model.id ∧
              after.engine.model = some model) := by
  unfold writeModel onStore
  dsimp only
  rw [Store.perform, Store.activated?]
  rcases (Store.createModel now source activate).run
      service.store with
    ⟨error | ⟨compilation, _ | model⟩, after⟩
  · exact ⟨rfl, .inl ⟨rfl, rfl, rfl⟩⟩
  · exact ⟨rfl, .inl ⟨rfl, rfl, rfl⟩⟩
  · cases activate with
    | false => exact ⟨rfl, .inl ⟨rfl, rfl, rfl⟩⟩
    | true =>
        exact ⟨rfl,
          .inr ⟨compilation, model, rfl, rfl, rfl, rfl⟩⟩

/-
  Activating a model acts on the store. If it fails, the
  engine and the cache stay as they are.
-/
theorem activateModel_cases
    (now : Int)
    (id : Bytes)
    (service : Service Shared) :
    let event := Store.Event.activateModel id
    let after := (service.activateModel now id).2
    after.store = service.store.perform event ∧
      (service.store.activated? event = none ∧
          after.engine = service.engine ∧
            after.cache = service.cache ∨
        ∃ model,
          ((Store.activateModel id).run service.store).1 =
            .ok model ∧
          service.store.activated? event = some id ∧
            after.engine.model = some model) := by
  unfold activateModel onStore
  dsimp only
  rw [Store.perform, Store.activated?]
  rcases (Store.activateModel id).run service.store with
    ⟨error | model, after⟩
  · exact ⟨rfl, .inl ⟨rfl, rfl, rfl⟩⟩
  · exact ⟨rfl, .inr ⟨model, rfl, rfl, rfl⟩⟩

theorem Matched.writeModel
    (hMatched : service.Matched)
    (now : Int)
    (source : Bytes)
    (activate : Bool) :
    (service.writeModel now source activate).2.Matched := by
  rcases writeModel_cases now source activate service with
    ⟨hStore, ⟨hNone, hEngine, _⟩ |
      ⟨compilation, model, hResult, rfl, hActivated, hModel⟩⟩
  · exact (hMatched.disturb _ hNone).congr hStore
      (congrArg Engine.model hEngine)
  · rcases Store.created_of_result hMatched.steady.idle hResult
      with ⟨hCreated, hStored⟩
    exact hMatched.activated hActivated hCreated.active hStored
      hStore hModel

theorem Matched.activateModel
    (hMatched : service.Matched)
    (now : Int)
    (id : Bytes) :
    (service.activateModel now id).2.Matched := by
  rcases activateModel_cases now id service with
    ⟨hStore, ⟨hNone, hEngine, _⟩ |
      ⟨model, hResult, hActivated, hModel⟩⟩
  · exact (hMatched.disturb _ hNone).congr hStore
      (congrArg Engine.model hEngine)
  · rcases Store.activateModel_cases id hMatched.steady.idle
        hMatched.catalog.toArchive with
      ⟨_, _, hRun, _⟩ | ⟨found, stored, hRun, hFound⟩
    · rw [hRun] at hResult
      cases hResult
    · rw [hRun] at hResult
      cases hResult
      have hNamed := hFound.named
      subst hNamed
      refine hMatched.activated hActivated hFound.active ?_
        hStore hModel
      rw [Store.perform, hRun]
      exact hFound.stored

------------------------------------------------------------
-- Events
------------------------------------------------------------

/-
  What can happen to a service: it carries out operations, is
  started, and statements of its store fail or succeed again.
-/
inductive Event where
  | operation (now : Int) (operation : Operation)
  | start
  | block (table : Bytes) (statement : Statement)
  | unblock (table : Bytes) (statement : Statement)
  deriving DecidableEq, Repr

/- A service after an event, be it that it fails. -/
def handle
    (event : Event)
    (service : Service Shared) : Service Shared :=
  match event with
  | .operation now operation => (service.perform now operation).2
  | .start => service.start.2
  | .block table statement =>
      service.disturb (.block table statement)
  | .unblock table statement =>
      service.disturb (.unblock table statement)

/- A service after some events. -/
def follow : List Event → Service Shared → Service Shared
  | [], service => service
  | event :: others, service => follow others (service.handle event)

/- A service that a blank one has become. -/
inductive Reachable : Service Shared → Prop where
  | blank
      {service : Service Shared}
      (hBlank : service.Blank) :
      Reachable service
  | event
      {service : Service Shared}
      (event : Event)
      (hReachable : Reachable service) :
      Reachable (service.handle event)

theorem Reachable.follow
    (hReachable : service.Reachable)
    (events : List Event) :
    (service.follow events).Reachable := by
  induction events generalizing service with
  | nil => exact hReachable
  | cons event others hOthers =>
      exact hOthers (hReachable.event event)

/- No event makes the engine use another model than the store. -/
theorem Matched.handle
    (hMatched : service.Matched)
    (event : Event) :
    (service.handle event).Matched := by
  cases event with
  | start => exact hMatched.start
  | block table statement => exact hMatched.disturb _ rfl
  | unblock table statement => exact hMatched.disturb _ rfl
  | operation now operation =>
      cases operation with
      | check request =>
          rcases check_keeps now request service with
            ⟨hStore, hEngine⟩
          exact hMatched.congr hStore
            (congrArg Engine.model hEngine)
      | checkAll requests =>
          rcases checkAll_keeps now requests service with
            ⟨hStore, hEngine⟩
          exact hMatched.congr hStore
            (congrArg Engine.model hEngine)
      | write writes deletes =>
          rcases write_keeps now writes deletes service with
            ⟨hStore, hEngine⟩
          have hDisturbed :=
            hMatched.disturb (.write now writes deletes) rfl
          exact hDisturbed.congr hStore
            (congrArg Engine.model hEngine)
      | writeModel source activate =>
          exact hMatched.writeModel now source activate
      | activateModel id => exact hMatched.activateModel now id
      | read request => exact hMatched
      | listObjects user relation type size token =>
          exact hMatched
      | listUsers object relation types size token =>
          exact hMatched
      | readModel version => exact hMatched
      | listModels => exact hMatched
      | readChanges since limit => exact hMatched
      | readStatistics => exact hMatched

theorem Reachable.matched
    (hReachable : service.Reachable) :
    service.Matched := by
  induction hReachable with
  | blank hBlank => exact hBlank.matched
  | event event _ hMatched => exact hMatched.handle event

------------------------------------------------------------
-- Alignment
------------------------------------------------------------

/-
  The engine has a model exactly when the store has an active
  one, and it is the same. Neither a model that is not to be
  active, nor a source that does not compile, nor an unknown
  id changes which one that is, or what the cache keeps.
-/
structure Aligned (service : Service Shared) : Prop where
  loaded :
    service.tables.activeModel = .ok service.engine.model
  rows :
    service.tables.models.filter StoredModel.active =
      service.engine.model.toList.map Model.row
  inactive : ∀ now source,
    service.Undisturbed (service.writeModel now source false).2
  rejected : ∀ now source activate,
    (compile source).schema? = none →
      (service.writeModel now source activate).1 =
          .ok ⟨compile source, none⟩ ∧
        service.Undisturbed
          (service.writeModel now source activate).2
  unknown : ∀ now id,
    id ∉ service.tables.models.map StoredModel.id →
      (service.activateModel now id).1 =
          .error (.unknownModel id) ∧
        service.Undisturbed (service.activateModel now id).2

/- Whatever has happened to a service, it is aligned. -/
theorem aligned_of_reachable
    (hReachable : service.Reachable) :
    service.Aligned := by
  have hMatched := hReachable.matched
  refine
    { loaded := hMatched.catalog.activeModel_eq hMatched.loaded
      rows := hMatched.activeRows_eq
      inactive := ?_
      rejected := ?_
      unknown := ?_ }
  · intro now source
    have hAfter := hMatched.writeModel now source false
    rcases writeModel_cases now source false service with
      ⟨_, ⟨_, hEngine, hCache⟩ | ⟨_, _, _, hFalse, _⟩⟩
    · exact hMatched.undisturbed hAfter hEngine hCache
    · cases hFalse
  · intro now source activate hRejected
    have hAfter := hMatched.writeModel now source activate
    have hRun :
        (Store.createModel now source activate).run
            service.store =
          (.ok ⟨compile source, none⟩, service.store) :=
      Store.createModel_rejected hRejected
    refine ⟨?_, ?_⟩
    · rw [Service.writeModel, onStore, hRun]
    · rcases writeModel_cases now source activate service with
        ⟨_, ⟨_, hEngine, hCache⟩ | ⟨_, _, hResult, _⟩⟩
      · exact hMatched.undisturbed hAfter hEngine hCache
      · rw [hRun] at hResult
        cases hResult
  · intro now id hUnknown
    have hAfter := hMatched.activateModel now id
    have hRun :
        (Store.activateModel id).run service.store =
          (.error (.unknownModel id), service.store) :=
      Store.activateModel_unknown hMatched.steady.idle
        hMatched.catalog.present hUnknown
    refine ⟨?_, ?_⟩
    · rw [Service.activateModel, onStore, hRun]
    · rcases activateModel_cases now id service with
        ⟨_, ⟨_, hEngine, hCache⟩ | ⟨_, hResult, _⟩⟩
      · exact hMatched.undisturbed hAfter hEngine hCache
      · rw [hRun] at hResult
        cases hResult

end Service

------------------------------------------------------------
-- An Example
------------------------------------------------------------

namespace Editions

/- A service without a model yet. -/
def service : Service Keyspace :=
  { store := Sharing.store
    cache := some Documents.cache }

/- The first model is used, whatever comes after it. -/
def operations : List Service.Event :=
  [.operation 1000 (.writeModel source true),
    .operation 2000 (.writeModel source false),
    .operation 3000 (.writeModel (utf8 "model") true),
    .operation 4000 (.activateModel (utf8 "nobody")),
    .start]

def first : Bytes := utf8 "00000000Z80000000000000000"

theorem service_blank : service.Blank :=
  ⟨Sharing.store_blank, rfl, rfl⟩

theorem first_in_use :
    (service.follow operations).Aligned ∧
      (service.follow operations).engine.model.map Model.id =
        some first := by
  constructor
  · exact Service.aligned_of_reachable
      ((Service.Reachable.blank service_blank).follow operations)
  · decide +kernel

end Editions

end Rebac
