import Rebac.Model.Basic
import Rebac.Store.Database

/-
  This file defines how models are stored.

  A model is stored with its source and compiled again when
  it is read. At most one model is active: activating one
  deactivates the others.

  Key definitions include:
    * `ModelCreation`
    * `StoredModel.restore`
    * `Store.createModel`
    * `Store.activateModel`
    * `Tables.activeModel`
    * `Tables.modelById`
    * `Tables.modelByVersion`
    * `Tables.modelList`
-/

namespace Rebac

------------------------------------------------------------
-- Reading
------------------------------------------------------------

/- Compiles a stored model again. -/
def StoredModel.restore
    (stored : StoredModel) : Except StoreError Model :=
  match (compile stored.source).schema? with
  | none => .error (.uncompilable stored.id)
  | some schema =>
      .ok
        { id := stored.id
          version := stored.version
          schema := schema
          source := stored.source
          active := stored.active
          created := stored.created }

namespace Tables

/- Restores models; the first one that fails is reported. -/
def restoreAll :
    List StoredModel → Except StoreError (List Model)
  | [] => .ok []
  | stored :: others =>
      match stored.restore with
      | .error error => .error error
      | .ok model => (restoreAll others).map (model :: ·)

/- The models that a test holds of, the newest first. -/
def modelsWhere
    (tables : Tables)
    (test : StoredModel → Bool) :
    Except StoreError (List Model) :=
  match tables.require .models with
  | .error error => .error error
  | .ok _ =>
      restoreAll
        ((tables.models.filter test).mergeSort
          StoredModel.precedes)

/- The active model, if there is one. -/
def activeModel
    (tables : Tables) : Except StoreError (Option Model) :=
  (tables.modelsWhere (·.active)).map List.head?

/- The first of some models, or a failure. -/
def firstOr
    (missing : StoreError)
    (models : Except StoreError (List Model)) :
    Except StoreError Model :=
  match models with
  | .error error => .error error
  | .ok [] => .error missing
  | .ok (model :: _) => .ok model

/- The model of the given id. -/
def modelById
    (tables : Tables)
    (id : Bytes) : Except StoreError Model :=
  firstOr (.unknownModel id)
    (tables.modelsWhere fun stored => stored.id = id)

/- The model of the given version. -/
def modelByVersion
    (tables : Tables)
    (version : Bytes) : Except StoreError Model :=
  firstOr (.unknownVersion version)
    (tables.modelsWhere fun stored => stored.version = version)

/- All models, the newest first. -/
def modelList
    (tables : Tables) : Except StoreError (List Model) :=
  tables.modelsWhere fun _ => true

end Tables

------------------------------------------------------------
-- Writing
------------------------------------------------------------

/- A compilation, and the model that was made of it. -/
structure ModelCreation where
  compilation : Compilation
  model : Option Model
  deriving Repr

namespace Store

/- Changes the models that a test holds of. -/
def updateModels
    (test : StoredModel → Bool)
    (update : StoredModel → StoredModel) : Action Unit := do
  query fun tables => tables.require .models
  query fun tables =>
    if tables.models.any test then
      tables.permit .models .update
    else
      .ok ()
  change fun tables =>
    { tables with
      models := tables.models.map fun stored =>
        if test stored then update stored else stored }

/- Deactivates all models but one. -/
def deactivateOthers (id : Bytes) : Action Unit :=
  updateModels
    (fun stored => stored.active && stored.id ≠ id)
    (fun stored => { stored with active := false })

/- Inserts the row of a model, unless it repeats another one. -/
def insertModel (model : Model) : Action Unit := do
  query fun tables => tables.require .models
  query fun tables => tables.permit .models .insert
  query fun tables =>
    if tables.models.any fun stored =>
        stored.version = model.version then
      .error (.database .repeatedVersion)
    else
      .ok ()
  query fun tables =>
    if tables.models.any fun stored => stored.id = model.id then
      .error (.database (.repeatedId .models))
    else
      .ok ()
  change fun tables =>
    { tables with
      models := tables.models ++
        [{ id := model.id
           version := model.version
           schemaVersion := model.schema.version
           source := model.source
           active := model.active
           created := model.created }] }

/-
  Compiles a source and stores the model, as the active one
  if asked to. A source that does not compile is not stored.
-/
def createModel
    (now : Int)
    (source : Bytes)
    (activate : Bool) : Action ModelCreation := do
  let compilation := compile source
  match compilation.schema? with
  | none => return { compilation := compilation, model := none }
  | some schema =>
      let issued ← drawWith (Model.issue schema source now)
      let model := { issued with active := activate }
      transaction do
        insertModel model
        if activate then
          deactivateOthers model.id
      return { compilation := compilation, model := some model }

/- Makes a stored model the active one. -/
def activateModel (id : Bytes) : Action Model := do
  transaction do
    query fun tables => tables.require .models
    query fun tables =>
      if tables.models.any fun stored => stored.id = id then
        .ok ()
      else
        .error (.unknownModel id)
    updateModels
      (fun stored => stored.id = id)
      (fun stored => { stored with active := true })
    deactivateOthers id
  query fun tables => tables.modelById id

end Store

end Rebac
