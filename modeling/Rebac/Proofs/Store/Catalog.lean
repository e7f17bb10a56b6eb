import Mathlib.Data.List.Nodup
import Rebac.Store.Models

/-
  This file proves what the lookups of models find.

  A stored model is found by its id and by its version as it
  was when it was created. Only its flag may differ, which
  says whether it is the one that became active last.

  Key definitions include:
    * `StoredModel.dormant`
    * `StoredModel.activeAs`
    * `Model.row`
    * `Model.whenLatest`
    * `Tables.Archive`
    * `Tables.Catalog`
    * `Tables.withActive`
    * `Tables.withModel`
    * `Tables.Retains`
    * `Tables.Stores`
    * `Tables.Reads`

  Key theorems include:
    * `Tables.Archive.withActive`
    * `Tables.Catalog.withModel`
    * `Tables.Catalog.reads`
    * `Tables.Catalog.activeRows_eq`
    * `Tables.Catalog.activeModel_eq`
-/

------------------------------------------------------------
-- Rows
------------------------------------------------------------

namespace Rebac

namespace StoredModel

/- A stored model as if it was not active. -/
def dormant (stored : StoredModel) : StoredModel :=
  { stored with active := false }

/- A stored model that is active exactly if it has an id. -/
def activeAs
    (id : Bytes)
    (stored : StoredModel) : StoredModel :=
  { stored with active := stored.id = id }

@[simp] theorem dormant_activeAs
    {id : Bytes}
    {stored : StoredModel} :
    (stored.activeAs id).dormant = stored.dormant := rfl

/- A stored model whose source compiles is read again. -/
theorem restore_eq
    {stored : StoredModel}
    {schema : Schema}
    (hCompiled :
      (compile stored.source).schema? = some schema) :
    stored.restore =
      .ok
        { id := stored.id
          version := stored.version
          schema := schema
          source := stored.source
          active := stored.active
          created := stored.created } := by
  rw [restore, hCompiled]

end StoredModel

namespace Model

/- The row that a model is stored in. -/
def row (model : Model) : StoredModel :=
  { id := model.id
    version := model.version
    schemaVersion := model.schema.version
    source := model.source
    active := model.active
    created := model.created }

/- A model, active exactly if it became active last. -/
def whenLatest
    (latest : Option Bytes)
    (model : Model) : Model :=
  { model with active := latest = some model.id }

end Model

namespace Tables

/- What a row holds apart from the flag tells its model. -/
theorem restore_eq_of_dormant_eq
    {stored : StoredModel}
    {model : Model}
    (hCompiled :
      (compile model.source).schema? = some model.schema)
    (hSame : stored.dormant = model.row.dormant) :
    stored.restore =
      .ok { model with active := stored.active } := by
  have hId : stored.id = model.id :=
    congrArg StoredModel.id hSame
  have hVersion : stored.version = model.version :=
    congrArg StoredModel.version hSame
  have hSource : stored.source = model.source :=
    congrArg StoredModel.source hSame
  have hCreated : stored.created = model.created :=
    congrArg StoredModel.created hSame
  rw [StoredModel.restore_eq (hSource ▸ hCompiled), hId,
    hVersion, hSource, hCreated]

------------------------------------------------------------
-- Catalogs
------------------------------------------------------------

/-
  No two stored models share their id or their version, and
  each of them can be compiled again, to the version of the
  language that was stored.
-/
structure Archive (tables : Tables) : Prop where
  present : .models ∉ tables.missing
  ids : (tables.models.map StoredModel.id).Nodup
  versions : (tables.models.map StoredModel.version).Nodup
  compiled : ∀ stored ∈ tables.models,
    ∃ schema,
      (compile stored.source).schema? = some schema ∧
        stored.schemaVersion = schema.version

/-
  Only the model that became active last is active. It is
  stored, if there is one.
-/
structure Catalog
    (latest : Option Bytes)
    (tables : Tables) : Prop extends Archive tables where
  active : ∀ stored ∈ tables.models,
    stored.active = true ↔ latest = some stored.id
  stored : ∀ id ∈ latest, id ∈ tables.models.map StoredModel.id

/- The tables after a model was inserted. -/
def withRow (model : Model) (tables : Tables) : Tables :=
  { tables with models := tables.models ++ [model.row] }

/- The tables after one model became the only active one. -/
def withActive (id : Bytes) (tables : Tables) : Tables :=
  { tables with
    models := tables.models.map (StoredModel.activeAs id) }

/- The tables after a model was inserted, perhaps as active. -/
def withModel (model : Model) (tables : Tables) : Tables :=
  if model.active then
    (tables.withRow model).withActive model.id
  else
    tables.withRow model

variable {tables : Tables}
variable {latest : Option Bytes}
variable {model : Model}
variable {id : Bytes}

/- Tables without models are a catalog of none. -/
theorem Catalog.empty
    (hPresent : .models ∉ tables.missing)
    (hModels : tables.models = []) :
    tables.Catalog none := by
  constructor
  · constructor
    · exact hPresent
    · simp [hModels]
    · simp [hModels]
    · simp [hModels]
  · simp [hModels]
  · simp

/- A model with an id and a version of its own is archived. -/
theorem Archive.insert
    (hArchive : tables.Archive)
    (hCompiled :
      (compile model.source).schema? = some model.schema)
    (hId : model.id ∉ tables.models.map StoredModel.id)
    (hVersion :
      model.version ∉ tables.models.map StoredModel.version) :
    (tables.withRow model).Archive := by
  have hAppended :
      ∀ stored ∈ (tables.withRow model).models,
        stored ∈ tables.models ∨ stored = model.row := by
    intro stored hStored
    rcases List.mem_append.mp hStored with hOld | hNew
    · exact .inl hOld
    · exact .inr (List.mem_singleton.mp hNew)
  constructor
  · exact hArchive.present
  · rw [withRow, List.map_append, List.map_singleton,
      ← List.concat_eq_append]
    exact List.Nodup.concat hId hArchive.ids
  · rw [withRow, List.map_append, List.map_singleton,
      ← List.concat_eq_append]
    exact List.Nodup.concat hVersion hArchive.versions
  · intro stored hStored
    rcases hAppended stored hStored with hOld | rfl
    · exact hArchive.compiled stored hOld
    · exact ⟨model.schema, hCompiled, rfl⟩

/- An archive whose only active model is a stored one. -/
theorem Archive.withActive
    (hArchive : tables.Archive)
    (hId : id ∈ tables.models.map StoredModel.id) :
    (tables.withActive id).Catalog (some id) := by
  have hIds :
      (tables.withActive id).models.map StoredModel.id =
        tables.models.map StoredModel.id := by
    rw [Tables.withActive, List.map_map]
    rfl
  have hVersions :
      (tables.withActive id).models.map StoredModel.version =
        tables.models.map StoredModel.version := by
    rw [Tables.withActive, List.map_map]
    rfl
  constructor
  · constructor
    · exact hArchive.present
    · rw [hIds]
      exact hArchive.ids
    · rw [hVersions]
      exact hArchive.versions
    · intro selected hSelected
      rcases List.mem_map.mp hSelected with
        ⟨stored, hStored, rfl⟩
      exact hArchive.compiled stored hStored
  · intro selected hSelected
    rcases List.mem_map.mp hSelected with ⟨stored, _, rfl⟩
    simp [StoredModel.activeAs, eq_comm]
  · rintro _ ⟨⟩
    rw [hIds]
    exact hId

/- A model that was inserted is active exactly if it is to be. -/
theorem Catalog.withModel
    (hCatalog : tables.Catalog latest)
    (hCompiled :
      (compile model.source).schema? = some model.schema)
    (hId : model.id ∉ tables.models.map StoredModel.id)
    (hVersion :
      model.version ∉ tables.models.map StoredModel.version) :
    (tables.withModel model).Catalog
      (if model.active then some model.id else latest) := by
  have hInserted : (tables.withRow model).Archive :=
    hCatalog.toArchive.insert hCompiled hId hVersion
  have hIds :
      (tables.withRow model).models.map StoredModel.id =
        tables.models.map StoredModel.id ++ [model.id] := by
    rw [withRow, List.map_append]
    rfl
  unfold Tables.withModel
  cases hActive : model.active with
  | true =>
      apply hInserted.withActive
      rw [hIds]
      exact List.mem_append_right _ (List.mem_singleton.mpr rfl)
  | false =>
      refine ⟨hInserted, ?_, ?_⟩
      · intro stored hStored
        rcases List.mem_append.mp hStored with hOld | hNew
        · exact hCatalog.active stored hOld
        · cases List.mem_singleton.mp hNew
          simp only [Model.row, hActive, Bool.false_eq_true,
            if_false, false_iff]
          intro hLatest
          exact hId (hCatalog.stored model.id hLatest)
      · intro id hLatest
        simp only [Bool.false_eq_true, if_false] at hLatest ⊢
        rw [hIds]
        exact List.mem_append_left _
          (hCatalog.stored id hLatest)

/- What is said of the models depends on no other table. -/
theorem Catalog.congr
    {after : Tables}
    (hCatalog : tables.Catalog latest)
    (hModels : after.models = tables.models)
    (hMissing : after.missing = tables.missing) :
    after.Catalog latest := by
  rcases hCatalog with
    ⟨⟨hPresent, hIds, hVersions, hCompiled⟩, hActive, hStored⟩
  rw [← hModels] at hIds hVersions hCompiled hActive hStored
  rw [← hMissing] at hPresent
  exact ⟨⟨hPresent, hIds, hVersions, hCompiled⟩, hActive,
    hStored⟩

/- A stored model is told by its id. -/
theorem Archive.eq_of_id_eq
    {first second : StoredModel}
    (hArchive : tables.Archive)
    (hFirst : first ∈ tables.models)
    (hSecond : second ∈ tables.models)
    (hSame : first.id = second.id) :
    first = second :=
  List.inj_on_of_nodup_map hArchive.ids hFirst hSecond hSame

/- A stored model is told by its version. -/
theorem Archive.eq_of_version_eq
    {first second : StoredModel}
    (hArchive : tables.Archive)
    (hFirst : first ∈ tables.models)
    (hSecond : second ∈ tables.models)
    (hSame : first.version = second.version) :
    first = second :=
  List.inj_on_of_nodup_map hArchive.versions hFirst hSecond
    hSame

------------------------------------------------------------
-- Later Tables
------------------------------------------------------------

/-
  Later tables begin with the models of the earlier ones, as
  they were apart from their flags.
-/
def Retains (before after : Tables) : Prop :=
  before.models.map StoredModel.dormant <+:
    after.models.map StoredModel.dormant

theorem Retains.of_models_eq
    {before after : Tables}
    (hModels : after.models = before.models) :
    before.Retains after := by
  simp [Retains, hModels]

theorem Retains.trans
    {first second third : Tables}
    (hFirst : first.Retains second)
    (hSecond : second.Retains third) :
    first.Retains third :=
  List.IsPrefix.trans hFirst hSecond

theorem retains_withActive
    (tables : Tables)
    (id : Bytes) :
    tables.Retains (tables.withActive id) := by
  rw [Retains, withActive, List.map_map]
  exact List.prefix_rfl

theorem retains_withModel
    (tables : Tables)
    (model : Model) :
    tables.Retains (tables.withModel model) := by
  have hInserted : tables.Retains (tables.withRow model) := by
    rw [Retains, withRow, List.map_append]
    exact List.prefix_append _ _
  unfold withModel
  split
  · exact hInserted.trans (retains_withActive _ _)
  · exact hInserted

------------------------------------------------------------
-- Lookups
------------------------------------------------------------

variable {stored : StoredModel}
variable {test : StoredModel → Bool}

/- Rows that compile are all read again. -/
theorem restoreAll_eq
    {rows : List StoredModel}
    (hCompiled : ∀ stored ∈ rows,
      ∃ schema, (compile stored.source).schema? = some schema) :
    ∃ models,
      restoreAll rows = .ok models ∧
        List.Forall₂
          (fun stored model => stored.restore = .ok model)
          rows models := by
  induction rows with
  | nil => exact ⟨[], rfl, .nil⟩
  | cons stored others hOthers =>
      rcases List.forall_mem_cons.mp hCompiled with
        ⟨⟨schema, hSchema⟩, hRest⟩
      rcases hOthers hRest with ⟨models, hModels, hEach⟩
      have hStored := StoredModel.restore_eq hSchema
      refine ⟨_, ?_, .cons hStored hEach⟩
      rw [restoreAll, hStored, hModels]
      rfl

/- No lookup of archived models fails. -/
theorem Archive.modelsWhere_eq
    (hArchive : tables.Archive)
    (test : StoredModel → Bool) :
    ∃ models,
      tables.modelsWhere test = .ok models ∧
        List.Forall₂
          (fun stored model => stored.restore = .ok model)
          ((tables.models.filter test).mergeSort
            StoredModel.precedes)
          models := by
  have hCompiled :
      ∀ stored ∈ (tables.models.filter test).mergeSort
          StoredModel.precedes,
        ∃ schema,
          (compile stored.source).schema? = some schema := by
    intro stored hStored
    rw [List.mem_mergeSort, List.mem_filter] at hStored
    rcases hArchive.compiled stored hStored.1 with
      ⟨schema, hSchema, _⟩
    exact ⟨schema, hSchema⟩
  rcases restoreAll_eq hCompiled with ⟨models, hModels, hEach⟩
  refine ⟨models, ?_, hEach⟩
  rw [modelsWhere, require, if_neg hArchive.present]
  exact hModels

/- A lookup finds every model that its test holds of. -/
theorem Archive.mem_modelsWhere
    {models : List Model}
    (hArchive : tables.Archive)
    (hStored : stored ∈ tables.models)
    (hTest : test stored = true)
    (hRestored : stored.restore = .ok model)
    (hFound : tables.modelsWhere test = .ok models) :
    model ∈ models := by
  rcases hArchive.modelsWhere_eq test with
    ⟨found, hModels, hEach⟩
  rw [hFound] at hModels
  cases hModels
  have hRow :
      stored ∈ (tables.models.filter test).mergeSort
        StoredModel.precedes := by
    rw [List.mem_mergeSort, List.mem_filter]
    exact ⟨hStored, hTest⟩
  rcases List.mem_iff_getElem.mp hRow with ⟨index, hIndex, rfl⟩
  have hBound : index < models.length :=
    hEach.length_eq ▸ hIndex
  have hSame := hEach.get hIndex hBound
  rw [List.get_eq_getElem, List.get_eq_getElem, hRestored]
    at hSame
  rw [Except.ok.inj hSame]
  exact List.getElem_mem hBound

/- A test that holds of one model only selects its row. -/
theorem Archive.filter_eq_singleton
    (hArchive : tables.Archive)
    (hStored : stored ∈ tables.models)
    (hTest : ∀ other ∈ tables.models,
      test other = true ↔ other = stored) :
    tables.models.filter test = [stored] := by
  have hOnly :
      (tables.models.filter test).Perm [stored] := by
    rw [List.perm_ext_iff_of_nodup
      ((List.Nodup.of_map _ hArchive.ids).filter _)
      (List.nodup_singleton stored)]
    intro other
    rw [List.mem_filter, List.mem_singleton]
    constructor
    · rintro ⟨hOther, hHolds⟩
      exact (hTest other hOther).mp hHolds
    · rintro rfl
      exact ⟨hStored, (hTest other hStored).mpr rfl⟩
  exact List.perm_singleton.mp hOnly

/- A lookup with such a test finds that model. -/
theorem Archive.modelsWhere_eq_singleton
    (hArchive : tables.Archive)
    (hStored : stored ∈ tables.models)
    (hTest : ∀ other ∈ tables.models,
      test other = true ↔ other = stored)
    (hRestored : stored.restore = .ok model) :
    tables.modelsWhere test = .ok [model] := by
  rw [modelsWhere, require, if_neg hArchive.present,
    hArchive.filter_eq_singleton hStored hTest,
    List.mergeSort_singleton]
  dsimp only
  rw [restoreAll, hRestored]
  rfl

/-
  A model is stored if it is compiled from its source and
  there is a row for it, whether this is active or not.
-/
def Stores (tables : Tables) (model : Model) : Prop :=
  (compile model.source).schema? = some model.schema ∧
    model.row.dormant ∈ tables.models.map StoredModel.dormant

/- A stored model stays one. -/
theorem Retains.stores
    {after : Tables}
    (hRetains : tables.Retains after)
    (hStores : tables.Stores model) :
    after.Stores model :=
  ⟨hStores.1, hRetains.subset hStores.2⟩

/- A model that was inserted is stored. -/
theorem stores_withModel
    (tables : Tables)
    (hCompiled :
      (compile model.source).schema? = some model.schema) :
    (tables.withModel model).Stores model := by
  have hInserted : (tables.withRow model).Stores model := by
    refine ⟨hCompiled, List.mem_map_of_mem ?_⟩
    exact List.mem_append_right _ (List.mem_singleton.mpr rfl)
  unfold withModel
  split
  · exact (retains_withActive _ _).stores hInserted
  · exact hInserted

/- A model is read by its id, by its version and in the list. -/
structure Reads (tables : Tables) (model : Model) : Prop where
  byId : tables.modelById model.id = .ok model
  byVersion : tables.modelByVersion model.version = .ok model
  listed : ∃ models,
    tables.modelList = .ok models ∧ model ∈ models

/- The row of a stored model is read as this model. -/
theorem Catalog.exists_row
    (hCatalog : tables.Catalog latest)
    (hStores : tables.Stores model) :
    ∃ stored ∈ tables.models,
      stored.id = model.id ∧
        stored.version = model.version ∧
          stored.restore = .ok (model.whenLatest latest) := by
  rcases hStores with ⟨hCompiled, hRow⟩
  rcases List.mem_map.mp hRow with ⟨stored, hStored, hSame⟩
  have hId : stored.id = model.id :=
    congrArg StoredModel.id hSame
  have hActive :
      stored.active = decide (latest = some model.id) := by
    rw [Bool.eq_iff_iff, decide_eq_true_iff, ← hId]
    exact hCatalog.active stored hStored
  refine ⟨stored, hStored, hId,
    congrArg StoredModel.version hSame, ?_⟩
  rw [restore_eq_of_dormant_eq hCompiled hSame, hActive]
  rfl

/- Every row is that of a stored model. -/
theorem Catalog.exists_model
    (hCatalog : tables.Catalog latest)
    (hId : id ∈ tables.models.map StoredModel.id) :
    ∃ model,
      model.id = id ∧ tables.Stores model ∧
        model.whenLatest latest = model := by
  rcases List.mem_map.mp hId with ⟨stored, hStored, rfl⟩
  rcases hCatalog.compiled stored hStored with
    ⟨schema, hCompiled, hSchema⟩
  let model : Model :=
    { id := stored.id
      version := stored.version
      schema := schema
      source := stored.source
      active := decide (latest = some stored.id)
      created := stored.created }
  have hRow : stored.dormant = model.row.dormant := by
    unfold StoredModel.dormant
    rw [hSchema]
    rfl
  exact ⟨model, rfl,
    ⟨hCompiled, hRow ▸ List.mem_map_of_mem hStored⟩, rfl⟩

/- Every lookup of a stored model finds it. -/
theorem Catalog.reads
    (hCatalog : tables.Catalog latest)
    (hStores : tables.Stores model) :
    tables.Reads (model.whenLatest latest) := by
  have hArchive := hCatalog.toArchive
  rcases hCatalog.exists_row hStores with
    ⟨stored, hStored, hId, hVersion, hRestored⟩
  constructor
  · have hFound :
        tables.modelsWhere (fun other => other.id = model.id) =
          .ok [model.whenLatest latest] := by
      refine hArchive.modelsWhere_eq_singleton hStored ?_
        hRestored
      intro other hOther
      rw [decide_eq_true_iff, ← hId]
      exact ⟨hArchive.eq_of_id_eq hOther hStored,
        congrArg StoredModel.id⟩
    exact congrArg (firstOr (.unknownModel model.id)) hFound
  · have hFound :
        tables.modelsWhere
            (fun other => other.version = model.version) =
          .ok [model.whenLatest latest] := by
      refine hArchive.modelsWhere_eq_singleton hStored ?_
        hRestored
      intro other hOther
      rw [decide_eq_true_iff, ← hVersion]
      exact ⟨hArchive.eq_of_version_eq hOther hStored,
        congrArg StoredModel.version⟩
    exact congrArg (firstOr (.unknownVersion model.version))
      hFound
  · rcases hArchive.modelsWhere_eq fun _ => true with
      ⟨models, hModels, _⟩
    exact ⟨models, hModels,
      hArchive.mem_modelsWhere hStored rfl hRestored hModels⟩

/- The row of the active model is the only active one. -/
theorem Catalog.activeRows_eq
    {active : Option Model}
    (hCatalog : tables.Catalog (active.map Model.id))
    (hActive : ∀ model ∈ active,
      model.active = true ∧ tables.Stores model) :
    tables.models.filter StoredModel.active =
      active.toList.map Model.row := by
  cases active with
  | none =>
      rw [Option.toList_none, List.map_nil,
        List.filter_eq_nil_iff]
      intro stored hStored
      rw [hCatalog.active stored hStored]
      exact nofun
  | some model =>
      rw [Option.map_some] at hCatalog
      rcases hActive model rfl with ⟨hFlag, _, hRow⟩
      rcases List.mem_map.mp hRow with ⟨stored, hStored, hSame⟩
      have hId : stored.id = model.id :=
        congrArg StoredModel.id hSame
      have hIsActive : stored.active = true := by
        rw [hCatalog.active stored hStored, hId]
      have hIsRow : stored = model.row := by
        have hWhole : ∀ row : StoredModel, row.active = true →
            row = { row.dormant with active := true } := by
          rintro ⟨⟩ hRowActive
          cases hRowActive
          rfl
        rw [hWhole stored hIsActive, hSame,
          ← hWhole model.row hFlag]
      rw [Option.toList_some, List.map_singleton, ← hIsRow]
      refine hCatalog.toArchive.filter_eq_singleton hStored ?_
      intro other hOther
      constructor
      · intro hOtherActive
        rw [hCatalog.active other hOther, ← hId]
          at hOtherActive
        exact hCatalog.toArchive.eq_of_id_eq hOther hStored
          (Option.some.inj hOtherActive).symm
      · rintro rfl
        exact hIsActive

/- The active model is the one that became active last. -/
theorem Catalog.activeModel_eq
    {active : Option Model}
    (hCatalog : tables.Catalog (active.map Model.id))
    (hActive : ∀ model ∈ active,
      model.active = true ∧ tables.Stores model) :
    tables.activeModel = .ok active := by
  rw [activeModel, modelsWhere, require,
    if_neg hCatalog.present]
  dsimp only
  rw [hCatalog.activeRows_eq hActive]
  cases active with
  | none =>
      rw [Option.toList_none, List.map_nil, List.mergeSort_nil]
      rfl
  | some model =>
      have hCompiled :
          (compile model.row.source).schema? =
            some model.schema :=
        (hActive model rfl).2.1
      rw [Option.toList_some, List.map_singleton,
        List.mergeSort_singleton, restoreAll,
        StoredModel.restore_eq hCompiled]
      rfl

/- A catalog has the model that became active last. -/
theorem Catalog.exists_active
    (hCatalog : tables.Catalog latest) :
    ∃ active,
      tables.activeModel = .ok active ∧
        active.map Model.id = latest := by
  cases latest with
  | none =>
      exact ⟨none, Catalog.activeModel_eq hCatalog nofun, rfl⟩
  | some id =>
      rcases hCatalog.exists_model (hCatalog.stored id rfl) with
        ⟨model, rfl, hStored, hSame⟩
      have hFlag : model.active = true := by
        rw [← hSame]
        exact decide_eq_true rfl
      refine ⟨some model, Catalog.activeModel_eq hCatalog ?_,
        rfl⟩
      rintro _ ⟨⟩
      exact ⟨hFlag, hStored⟩

/- No two models are active. -/
theorem Catalog.single
    (hCatalog : tables.Catalog latest) :
    (tables.models.filter StoredModel.active).length ≤ 1 := by
  have hNodup :
      (tables.models.filter StoredModel.active).Nodup :=
    (List.Nodup.of_map _ hCatalog.ids).filter _
  have hLatest : ∀ stored ∈
      tables.models.filter StoredModel.active,
        stored ∈ tables.models ∧ latest = some stored.id := by
    intro stored hStored
    rcases List.mem_filter.mp hStored with ⟨hRow, hFlag⟩
    exact ⟨hRow, (hCatalog.active stored hRow).mp hFlag⟩
  match hActive : tables.models.filter StoredModel.active with
  | [] => exact Nat.zero_le 1
  | [_] => exact Nat.le_refl 1
  | first :: second :: others =>
      rw [hActive] at hNodup hLatest
      rcases hLatest first (by simp) with ⟨hFirst, hOne⟩
      rcases hLatest second (by simp) with ⟨hSecond, hTwo⟩
      have hSame : first = second :=
        hCatalog.toArchive.eq_of_id_eq hFirst hSecond
          (Option.some.inj (hOne.symm.trans hTwo))
      simp [hSame] at hNodup

end Tables

end Rebac
