import Rebac.Proofs.Store.Catalog
import Rebac.Proofs.Store.History

/-
  This file proves what becomes of the models of a store.

  Models are stored and activated, and nothing else touches
  them. A model that was stored stays there, and is read as
  it was created; only the one that became active last is
  active.

  Key definitions include:
    * `Store.Created`
    * `Store.activated?`
    * `Store.lastActivated?`
    * `Store.Archives`

  Key theorems include:
    * `Store.createModel_cases`
    * `Store.activateModel_cases`
    * `Store.created_of_result`
    * `Store.catalog_perform`
    * `Store.archives_of_run`
-/

namespace Rebac

namespace Store

open Tables

variable {store after : Store}
variable {model : Model}
variable {source id : Bytes}
variable {now : Int}
variable {activate : Bool}

------------------------------------------------------------
-- Statements
------------------------------------------------------------

/- An update changes the models that its test holds of. -/
theorem updated_of_run
    {test : StoredModel → Bool}
    {update : StoredModel → StoredModel}
    (hRun :
      (updateModels test update).run store = (.ok (), after)) :
    after.tables =
      { store.tables with
        models := store.tables.models.map fun stored =>
          if test stored then update stored else stored } := by
  unfold updateModels at hRun
  rcases Action.exists_of_run_bind hRun with
    ⟨_, required, hRequire, hPermitted⟩
  have hRequired := (Action.eq_of_run_query hRequire).2
  rcases Action.exists_of_run_bind hPermitted with
    ⟨_, permitted, hPermit, hChanged⟩
  have hAllowed := (Action.eq_of_run_query hPermit).2
  have hAfter := tables_of_change hChanged
  rw [hAllowed, hRequired] at hAfter
  exact hAfter

/- A model that was inserted has an id and a version of its own. -/
theorem inserted_of_run
    (hRun : (insertModel model).run store = (.ok (), after)) :
    model.id ∉ store.tables.models.map StoredModel.id ∧
      model.version ∉
        store.tables.models.map StoredModel.version ∧
      after.tables = store.tables.withRow model := by
  unfold insertModel at hRun
  rcases Action.exists_of_run_bind hRun with
    ⟨_, required, hRequire, hPermitted⟩
  have hRequired := (Action.eq_of_run_query hRequire).2
  rcases Action.exists_of_run_bind hPermitted with
    ⟨_, permitted, hPermit, hVersions⟩
  have hAllowed := (Action.eq_of_run_query hPermit).2
  rcases Action.exists_of_run_bind hVersions with
    ⟨_, versioned, hVersion, hIds⟩
  rcases fresh_of_run Tables.models StoredModel.version
      hVersion with ⟨hFreshVersion, hUnversioned⟩
  rcases Action.exists_of_run_bind hIds with
    ⟨_, identified, hId, hChanged⟩
  rcases fresh_of_run Tables.models StoredModel.id hId with
    ⟨hFreshId, hSame⟩
  have hAfter := tables_of_change hChanged
  rw [hSame, hUnversioned, hAllowed, hRequired] at hAfter
  rw [hUnversioned, hAllowed, hRequired] at hFreshId
  rw [hAllowed, hRequired] at hFreshVersion
  exact ⟨hFreshId, hFreshVersion, hAfter⟩

/-
  Deactivating the other models leaves the one of an id as
  the only active one, if it is active.
-/
theorem deactivated_of_run
    (hActive : ∀ stored ∈ store.tables.models,
      stored.id = id → stored.active = true)
    (hRun : (deactivateOthers id).run store = (.ok (), after)) :
    after.tables = store.tables.withActive id := by
  have hSelected :
      (store.tables.models.map fun stored =>
        if stored.active && stored.id ≠ id then
          stored.dormant
        else
          stored) =
        store.tables.models.map (StoredModel.activeAs id) := by
    refine List.map_congr_left fun stored hStored => ?_
    rcases stored with ⟨name, version, schema, text, active, time⟩
    by_cases hId : name = id
    · have hFlag : active = true := hActive _ hStored hId
      simp [StoredModel.activeAs, hId, hFlag]
    · cases active <;>
        simp [StoredModel.activeAs, StoredModel.dormant, hId]
  rw [updated_of_run hRun, withActive, ← hSelected]
  rfl

------------------------------------------------------------
-- Creation
------------------------------------------------------------

/-
  What creating a model from a source has done. The model is
  what was asked for, and there is a row for it from now on.
-/
structure Created
    (now : Int)
    (source : Bytes)
    (activate : Bool)
    (model : Model)
    (before after : Store) : Prop where
  compiled : (compile source).schema? = some model.schema
  source : model.source = source
  active : model.active = activate
  time : model.created = now
  id : model.id ∉ before.tables.models.map StoredModel.id
  version :
    model.version ∉ before.tables.models.map StoredModel.version
  idle : after.database.saved = none
  tables : after.tables = before.tables.withModel model

/- The statements that store a model. -/
def storeModel
    (model : Model)
    (activate : Bool) : Action Unit := do
  insertModel model
  if activate then
    deactivateOthers model.id

theorem storeModel_within
    {saved : Option Tables}
    (model : Model)
    (activate : Bool) :
    (storeModel model activate).Preserves
      (Within saved fun _ => True) := by
  have hModels : ∀ (_ : Tables) (_ : List StoredModel),
      True → True := fun _ _ hTrue => hTrue
  refine (insertModel_preserves hModels _).bind fun _ => ?_
  split
  · exact updateModels_preserves hModels _ _
  · exact Action.Preserves.pure _

/- A model that was stored has a row; if asked to, it is active. -/
theorem stored_of_run
    (hActive : model.active = activate)
    (hRun :
      (storeModel model activate).run store =
        (.ok (), after)) :
    model.id ∉ store.tables.models.map StoredModel.id ∧
      model.version ∉
        store.tables.models.map StoredModel.version ∧
      after.tables = store.tables.withModel model := by
  unfold storeModel at hRun
  rcases Action.exists_of_run_bind hRun with
    ⟨_, inserted, hInsert, hRest⟩
  rcases inserted_of_run hInsert with
    ⟨hId, hVersion, hInserted⟩
  refine ⟨hId, hVersion, ?_⟩
  subst hActive
  unfold withModel
  split at hRest
  · next hFlag =>
      rw [if_pos hFlag, ← hInserted]
      refine deactivated_of_run ?_ hRest
      rw [hInserted]
      intro stored hStored hSame
      rcases List.mem_append.mp hStored with hOld | hNew
      · exact absurd (hSame ▸ List.mem_map_of_mem hOld) hId
      · rw [List.mem_singleton.mp hNew]
        exact hFlag
  · next hFlag =>
      rw [if_neg hFlag, ← hInserted, (Prod.mk.inj hRest).2]

/- A source that does not compile changes nothing. -/
theorem createModel_rejected
    (hRejected : (compile source).schema? = none) :
    (createModel now source activate).run store =
      (.ok ⟨compile source, none⟩, store) := by
  rw [createModel, hRejected]
  rfl

/-
  A source is rejected, or its creation fails and leaves the
  database as it was, or the model is stored.
-/
theorem createModel_cases
    (now : Int)
    (source : Bytes)
    (activate : Bool)
    (hIdle : store.database.saved = none) :
    ((compile source).schema? = none ∧
      (createModel now source activate).run store =
        (.ok ⟨compile source, none⟩, store)) ∨
    (∃ error after,
      (createModel now source activate).run store =
          (.error error, after) ∧
        after.database = store.database) ∨
    ∃ model after,
      (createModel now source activate).run store =
          (.ok ⟨compile source, some model⟩, after) ∧
        Created now source activate model store after := by
  cases hCompiled : (compile source).schema? with
  | none => exact .inl ⟨rfl, createModel_rejected hCompiled⟩
  | some schema =>
      right
      rw [createModel, hCompiled]
      dsimp only
      rcases hDrawn :
          Model.issue schema source now store.ids with
        ⟨issued, ids⟩
      have hDraw :
          (drawWith (Model.issue schema source now)).run
              store = (.ok issued, { store with ids := ids }) := by
        simp only [drawWith, ExceptT.run, hDrawn]
      have hIssued :
          issued.schema = schema ∧ issued.source = source ∧
            issued.created = now := by
        rw [Model.issue] at hDrawn
        cases hDrawn
        exact ⟨rfl, rfl, rfl⟩
      let model : Model := { issued with active := activate }
      let drawn : Store := { store with ids := ids }
      rw [Action.run_bind, hDraw]
      dsimp only
      rw [Action.run_bind]
      have hInner :=
        storeModel_within model activate drawn.begun
          ⟨rfl, trivial⟩
      have hDrawnIdle : drawn.database.saved = none := hIdle
      rcases transaction_cases hDrawnIdle hInner.1 with
        ⟨error, after, hFailed, hSame⟩ |
          ⟨result, inner, hStored, hDone⟩
      · left
        refine ⟨error, after, ?_, hSame⟩
        unfold storeModel at hFailed
        rw [hFailed]
      · right
        rcases stored_of_run rfl hStored with
          ⟨hId, hVersion, hTables⟩
        refine ⟨model,
          { inner with
            database := { inner.database with saved := none } },
          ?_,
          { compiled := hCompiled.trans
              (congrArg some hIssued.1.symm)
            source := hIssued.2.1
            active := rfl
            time := hIssued.2.2
            id := hId
            version := hVersion
            idle := rfl
            tables := hTables }⟩
        unfold storeModel at hDone
        rw [hDone]
        rfl

------------------------------------------------------------
-- Activation
------------------------------------------------------------

/-
  What activating the model of an id has done. It is the only
  active one from now on.
-/
structure Activated
    (id : Bytes)
    (model : Model)
    (before after : Store) : Prop where
  known : id ∈ before.tables.models.map StoredModel.id
  named : model.id = id
  active : model.active = true
  stored : after.tables.Stores model
  idle : after.database.saved = none
  tables : after.tables = before.tables.withActive id

/- The statements that make a stored model the active one. -/
def selectModel (id : Bytes) : Action Unit := do
  query fun tables => tables.require .models
  query fun tables =>
    if tables.models.any fun stored => stored.id = id then
      .ok ()
    else
      .error (.unknownModel id)
  updateModels
    (fun stored => stored.id = id)
    (fun stored => { stored with active := true })
  deactivateOthers id

theorem selectModel_within
    {saved : Option Tables}
    (id : Bytes) :
    (selectModel id).Preserves (Within saved fun _ => True) := by
  have hModels : ∀ (_ : Tables) (_ : List StoredModel),
      True → True := fun _ _ hTrue => hTrue
  refine (Action.Preserves.query _).bind fun _ => ?_
  refine (Action.Preserves.query _).bind fun _ => ?_
  refine (updateModels_preserves hModels _ _).bind fun _ => ?_
  exact updateModels_preserves hModels _ _

/- A model that was selected is stored, and the active one. -/
theorem selected_of_run
    (hRun : (selectModel id).run store = (.ok (), after)) :
    id ∈ store.tables.models.map StoredModel.id ∧
      after.tables = store.tables.withActive id := by
  unfold selectModel at hRun
  rcases Action.exists_of_run_bind hRun with
    ⟨_, required, hRequire, hProbed⟩
  have hRequired := (Action.eq_of_run_query hRequire).2
  rcases Action.exists_of_run_bind hProbed with
    ⟨_, probed, hProbe, hUpdated⟩
  rcases Action.eq_of_run_query hProbe with ⟨hKnown, hSame⟩
  rcases Action.exists_of_run_bind hUpdated with
    ⟨_, updated, hUpdate, hRest⟩
  subst hSame hRequired
  have hAfter := updated_of_run hUpdate
  refine ⟨?_, ?_⟩
  · split at hKnown
    · next hAny =>
        rcases List.any_eq_true.mp hAny with
          ⟨stored, hStored, hId⟩
        exact List.mem_map.mpr
          ⟨stored, hStored, of_decide_eq_true hId⟩
    · cases hKnown
  · have hFlagged : ∀ stored ∈ updated.tables.models,
        stored.id = id → stored.active = true := by
      rw [hAfter]
      intro stored hStored hId
      rcases List.mem_map.mp hStored with ⟨earlier, _, rfl⟩
      by_cases hSame : earlier.id = id
      · simp [hSame]
      · simp [hSame] at hId
    rw [deactivated_of_run hFlagged hRest, hAfter, withActive,
      withActive, List.map_map]
    congr 1
    refine List.map_congr_left fun stored _ => ?_
    by_cases hSame : stored.id = id <;>
      simp [StoredModel.activeAs, hSame]

/- An id without a model changes nothing. -/
theorem activateModel_unknown
    (hIdle : store.database.saved = none)
    (hPresent : .models ∉ store.tables.missing)
    (hUnknown : id ∉ store.tables.models.map StoredModel.id) :
    (activateModel id).run store =
      (.error (.unknownModel id), store) := by
  have hNone :
      ¬ (store.tables.models.any fun stored =>
        stored.id = id) = true := by
    rw [List.any_eq_true]
    rintro ⟨stored, hStored, hId⟩
    exact hUnknown (List.mem_map.mpr
      ⟨stored, hStored, of_decide_eq_true hId⟩)
  have hRequire :
      store.begun.tables.require .models = .ok () :=
    if_neg hPresent
  have hProbe :
      (selectModel id).run store.begun =
        (.error (.unknownModel id), store.begun) := by
    have hLooked :
        (query fun tables => tables.require .models).run
            store.begun = (.ok (), store.begun) :=
      Prod.ext hRequire rfl
    rw [selectModel, Action.run_bind, hLooked]
    dsimp only
    rw [Action.run_bind]
    have hMissed :
        (query fun tables =>
          if tables.models.any fun stored => stored.id = id then
            .ok ()
          else
            .error (.unknownModel id)).run store.begun =
          (.error (.unknownModel id), store.begun) :=
      Prod.ext (if_neg hNone) rfl
    rw [hMissed]
  have hRun :
      (activateModel id).run store =
        ((do
          transaction (selectModel id)
          query fun tables => tables.modelById id) :
            Action Model).run store := rfl
  rw [hRun, Action.run_bind, run_transaction hIdle hProbe]
  rfl

/-
  Activating a model fails and leaves the database as it was,
  or the model is the active one from then on.
-/
theorem activateModel_cases
    (id : Bytes)
    (hIdle : store.database.saved = none)
    (hArchive : store.tables.Archive) :
    (∃ error after,
      (activateModel id).run store = (.error error, after) ∧
        after.database = store.database) ∨
      ∃ model after,
        (activateModel id).run store = (.ok model, after) ∧
          Activated id model store after := by
  have hRun :
      (activateModel id).run store =
        ((do
          transaction (selectModel id)
          query fun tables => tables.modelById id) :
            Action Model).run store := rfl
  rw [hRun, Action.run_bind]
  have hInner :=
    selectModel_within id store.begun ⟨rfl, trivial⟩
  rcases transaction_cases hIdle hInner.1 with
    ⟨error, after, hFailed, hSame⟩ |
      ⟨result, inner, hSelected, hDone⟩
  · left
    refine ⟨error, after, ?_, hSame⟩
    rw [hFailed]
  · right
    rcases selected_of_run hSelected with ⟨hKnown, hTables⟩
    have hCatalog : inner.tables.Catalog (some id) := by
      rw [hTables]
      exact hArchive.withActive hKnown
    rcases hCatalog.exists_model (hCatalog.stored id rfl) with
      ⟨model, hId, hStored, hSame⟩
    have hFound : inner.tables.modelById id = .ok model := by
      have hReads := (hCatalog.reads hStored).byId
      rw [hSame, hId] at hReads
      exact hReads
    refine ⟨model,
      { inner with
        database := { inner.database with saved := none } },
      ?_,
      { known := hKnown
        named := hId
        active := by
          rw [← hSame, Model.whenLatest, hId]
          exact decide_eq_true rfl
        stored := hStored
        idle := rfl
        tables := hTables }⟩
    rw [hDone]
    exact Prod.ext hFound rfl

------------------------------------------------------------
-- Events
------------------------------------------------------------

/- The id of the model that an event makes the active one. -/
def activated? (store : Store) : Event → Option Bytes
  | .createModel now source activate =>
      match ((createModel now source activate).run store).1 with
      | .ok ⟨_, some model⟩ =>
          if activate then some model.id else none
      | _ => none
  | .activateModel id =>
      match ((activateModel id).run store).1 with
      | .ok _ => some id
      | .error _ => none
  | _ => none

/-
  The id of the model that became active last in the course
  of some events, if one did.
-/
def lastActivated? : List Event → Store → Option Bytes
  | [], _ => none
  | event :: others, store =>
      (lastActivated? others (store.perform event)).or
        (store.activated? event)

/- A batch of tuples touches no model. -/
theorem batchInvariant_models
    {txid : Int}
    {models : List StoredModel} :
    BatchInvariant txid fun store =>
      store.tables.models = models where
  draw _ _ hModels := hModels
  log _ _ hModels := hModels
  mark _ _ hModels := hModels
  insert _ _ _ _ hModels := hModels

theorem write_models
    (now : Int)
    (writes deletes : List TupleKey)
    (hIdle : store.database.saved = none) :
    (store.perform (.write now writes deletes)).tables.models =
      store.tables.models := by
  rw [perform]
  rcases write_cases now writes deletes hIdle with
    ⟨_, after, hFailed, hSame⟩ |
      ⟨additions, removals, _, inner, _, _, hAlter, hWritten⟩
  · rw [hFailed, tables, hSame]
    rfl
  · have hModels : inner.tables.models = store.tables.models :=
      (alter_preserves batchInvariant_models additions
        removals).of_run hAlter rfl
    rw [hWritten]
    exact hModels

variable {latest : Option Bytes}

/- An event that fails changes no catalog. -/
theorem catalog_of_database_eq
    (hCatalog : store.tables.Catalog latest)
    (hSame : after.database = store.database) :
    after.tables.Catalog latest ∧
      store.tables.Retains after.tables := by
  rw [tables, hSame]
  exact ⟨hCatalog, .of_models_eq rfl⟩

/-
  An event makes at most one model the active one. All models
  that were stored before are still there.
-/
theorem catalog_perform
    (event : Event)
    (hSteady : store.Steady)
    (hCatalog : store.tables.Catalog latest) :
    (store.perform event).tables.Catalog
        ((store.activated? event).or latest) ∧
      store.tables.Retains (store.perform event).tables := by
  cases event with
  | write now writes deletes =>
      have hModels := write_models now writes deletes
        hSteady.idle
      refine ⟨hCatalog.congr hModels ?_, .of_models_eq hModels⟩
      rw [(hSteady.perform _).missing, hSteady.missing]
  | createModel now source activate =>
      rw [perform]
      rcases createModel_cases now source activate
          hSteady.idle with
        ⟨_, hRun⟩ | ⟨error, after, hRun, hSame⟩ |
          ⟨model, after, hRun, hCreated⟩
      · rw [activated?, hRun]
        exact ⟨hCatalog, .of_models_eq rfl⟩
      · rw [activated?, hRun]
        exact catalog_of_database_eq hCatalog hSame
      · have hCompiled :
            (compile model.source).schema? =
              some model.schema :=
          hCreated.source ▸ hCreated.compiled
        have hAfter := hCatalog.withModel hCompiled hCreated.id
          hCreated.version
        rw [activated?, hRun]
        dsimp only
        rw [hCreated.tables]
        refine ⟨?_, retains_withModel _ _⟩
        rw [hCreated.active] at hAfter
        cases activate with
        | true => exact hAfter
        | false => exact hAfter
  | activateModel id =>
      rw [perform]
      rcases activateModel_cases id hSteady.idle
          hCatalog.toArchive with
        ⟨error, after, hRun, hSame⟩ |
          ⟨model, after, hRun, hActivated⟩
      · rw [activated?, hRun]
        exact catalog_of_database_eq hCatalog hSame
      · rw [activated?, hRun]
        dsimp only
        rw [hActivated.tables]
        exact ⟨hCatalog.toArchive.withActive hActivated.known,
          retains_withActive _ _⟩
  | block table statement =>
      rcases block_ruled table statement store with
        ⟨rules, hRuled⟩
      rw [hRuled]
      exact ⟨hCatalog.congr rfl rfl, .of_models_eq rfl⟩
  | unblock table statement =>
      rcases unblock_ruled table statement store with
        ⟨rules, hRuled⟩
      rw [hRuled]
      exact ⟨hCatalog.congr rfl rfl, .of_models_eq rfl⟩

theorem Steady.run
    (hSteady : store.Steady)
    (events : List Event) :
    (store.run events).Steady := by
  induction events generalizing store with
  | nil => exact hSteady
  | cons event others hOthers =>
      exact hOthers (hSteady.perform event)

/-
  A model that creating one returned is what was asked for,
  and is stored from then on.
-/
theorem created_of_result
    {now : Int}
    {source : Bytes}
    {activate : Bool}
    {compilation : Compilation}
    {model : Model}
    (hIdle : store.database.saved = none)
    (hResult :
      ((createModel now source activate).run store).1 =
        .ok ⟨compilation, some model⟩) :
    let after := store.perform (.createModel now source activate)
    Created now source activate model store after ∧
      after.tables.Stores model := by
  dsimp only
  rw [perform]
  rcases createModel_cases now source activate hIdle with
    ⟨_, hRun⟩ | ⟨_, _, hRun, _⟩ | ⟨created, after, hRun, hCreated⟩
  · rw [hRun] at hResult
    cases hResult
  · rw [hRun] at hResult
    cases hResult
  · rw [hRun] at hResult
    cases hResult
    rw [hRun]
    refine ⟨hCreated, ?_⟩
    rw [hCreated.tables]
    refine Tables.stores_withModel _ ?_
    rw [hCreated.source]
    exact hCreated.compiled

/- What each event keeps is kept by all of them. -/
theorem catalog_run
    (events : List Event)
    (hSteady : store.Steady)
    (hCatalog : store.tables.Catalog latest) :
    (store.run events).tables.Catalog
        ((lastActivated? events store).or latest) ∧
      store.tables.Retains (store.run events).tables := by
  induction events generalizing store latest with
  | nil => exact ⟨hCatalog, .of_models_eq rfl⟩
  | cons event others hOthers =>
      rcases catalog_perform event hSteady hCatalog with
        ⟨hNext, hRetains⟩
      rcases hOthers (hSteady.perform event) hNext with
        ⟨hAfter, hOn⟩
      rw [lastActivated?, Option.or_assoc]
      exact ⟨hAfter, hRetains.trans hOn⟩

------------------------------------------------------------
-- Histories
------------------------------------------------------------

/-
  What the models of a store are after some events. Only the
  one that became active last is active. Those that were ever
  there are still there, in their order. A model that was
  created is what was asked for, and is found as it was by
  its id, by its version and in the list.
-/
structure Archives
    (start : Store)
    (events : List Event) : Prop where
  active : ∀ stored ∈ (start.run events).tables.models,
    stored.active = true ↔
      lastActivated? events start = some stored.id
  single :
    ((start.run events).tables.models.filter
      StoredModel.active).length ≤ 1
  latest : ∃ active,
    (start.run events).tables.activeModel = .ok active ∧
      active.map Model.id = lastActivated? events start
  kept : ∀ earlier later, events = earlier ++ later →
    (start.run earlier).tables.Retains
      (start.run events).tables
  created : ∀ earlier now source activate later model,
    events =
        earlier ++ .createModel now source activate :: later →
      ((createModel now source activate).run
          (start.run earlier)).1 =
        .ok ⟨compile source, some model⟩ →
      model.source = source ∧ model.created = now ∧
        (compile source).schema? = some model.schema ∧
        (start.run events).tables.Reads
          (model.whenLatest (lastActivated? events start))
  readable : ∀ test, ∃ models,
    (start.run events).tables.modelsWhere test = .ok models

/- The models of a store are those of its history. -/
theorem archives_of_run
    {start : Store}
    (events : List Event)
    (hBlank : start.Blank)
    (hModels : start.tables.models = []) :
    start.Archives events := by
  have hStart : start.tables.Catalog none := by
    refine .empty ?_ hModels
    rw [hBlank.missing]
    exact List.not_mem_nil
  have hCatalog :
      (start.run events).tables.Catalog
        (lastActivated? events start) := by
    have hAfter := (catalog_run events hBlank.steady hStart).1
    rw [Option.or_none] at hAfter
    exact hAfter
  constructor
  · exact hCatalog.active
  · exact hCatalog.single
  · exact hCatalog.exists_active
  · rintro earlier later rfl
    rw [run_append]
    exact (catalog_run later (hBlank.steady.run earlier)
      (catalog_run earlier hBlank.steady hStart).1).2
  · rintro earlier now source activate later model rfl hResult
    have hEarlier := hBlank.steady.run earlier
    have hBefore := (catalog_run earlier hBlank.steady hStart).1
    rcases created_of_result hEarlier.idle hResult with
      ⟨hCreated, hStored⟩
    have hLater :=
      catalog_run later (hEarlier.perform _)
        (catalog_perform (.createModel now source activate)
          hEarlier hBefore).1
    refine ⟨hCreated.source, hCreated.time,
      hCreated.compiled, hCatalog.reads ?_⟩
    rw [run_append]
    exact hLater.2.stores hStored
  · intro test
    rcases hCatalog.toArchive.modelsWhere_eq test with
      ⟨models, hFound, _⟩
    exact ⟨models, hFound⟩

end Store

------------------------------------------------------------
-- An Example
------------------------------------------------------------

/- A source that is stored twice. The second model wins. -/
namespace Editions

def source : Bytes :=
  utf8 "model
  schema 1.1
type user
"

def second : Bytes := utf8 "00000001YG2000000000000000"

def events : List Store.Event :=
  [.createModel 1000 source true,
    .createModel 2000 source false,
    .activateModel (utf8 "nobody"),
    .activateModel second]

theorem editions_archived :
    Sharing.store.Archives events ∧
      Store.lastActivated? events Sharing.store =
        some second := by
  constructor
  · exact Store.archives_of_run events Sharing.store_blank rfl
  · decide +kernel

end Editions

end Rebac
