import Rebac.Audit.Log
import Rebac.Cache.Permission
import Rebac.Service.Page
import Rebac.Service.Statistics
import Rebac.Store.Models
import Rebac.Store.Write

/-
  This file defines the service: a store, an engine for
  decisions, and what watches and remembers them.

  Decisions about the latest state are kept in the cache.
  The cache forgets all of them when tuples change, since a
  tuple may matter to decisions that name neither its user
  nor its object. When another model becomes active, the
  engine uses it from then on and the cache starts anew.

  The clock stands still during a call. Only objects, which
  take a check each, can be listed while it goes on.

  Key definitions include:
    * `Service`
    * `Service.Call`
    * `Response`
    * `Service.snapshot`
    * `Service.start`
    * `Service.check`
    * `Service.write`
    * `Service.read`
    * `Service.listObjectsAlong`
    * `Service.listObjects`
    * `Service.listUsers`
    * `Service.writeModel`
    * `Service.readModel`
    * `Service.activateModel`
-/

namespace Rebac

------------------------------------------------------------
-- Services
------------------------------------------------------------

/- A service; its cache, log and statistics may be missing. -/
structure Service (Shared : Type) where
  store : Store
  engine : Engine := {}
  cache : Option (PermissionCache Shared) := none
  log : Option AuditLog := none
  statistics : Option Statistics := none

/- A verdict and where it comes from. -/
structure Response where
  verdict : Verdict
  source : Option PermissionCache.Source := none
  deriving DecidableEq, Repr

namespace Service

variable {Shared : Type}

/- A call changes the service and has a result or fails. -/
abbrev Call (Shared Result : Type) :=
  Service Shared →
    Except StoreError Result × Service Shared

/- The tables of a service. -/
def tables (service : Service Shared) : Tables :=
  service.store.tables

/- A call that acts on the store. -/
def onStore
    {Result : Type}
    (action : Store.Action Result) : Call Shared Result :=
  fun service =>
    let (result, store) := action.run service.store
    (result, { service with store := store })

/- Changes the cache, if there is one. -/
def changeCache
    (change : PermissionCache Shared → PermissionCache Shared)
    (service : Service Shared) : Service Shared :=
  { service with cache := service.cache.map change }

/- Adds a record to the log, if there is one. -/
def record
    (entry : AuditRecord)
    (service : Service Shared) : Service Shared :=
  { service with
    log := service.log.map fun log => log.add entry }

/- Counts something, if anything is counted. -/
def count
    (change : Statistics → Statistics)
    (service : Service Shared) : Service Shared :=
  { service with statistics := service.statistics.map change }

/-
  The counts so far. Where nothing is counted they are all
  zero, and so is their time.
-/
def snapshot
    (now : Int)
    (service : Service Shared) : Statistics.Snapshot :=
  match service.statistics with
  | none =>
      { counts := { since := 0 }
        time := 0 }
  | some statistics =>
      { counts := statistics
        time := now }

/- Lets the engine use a model. -/
def load
    (model : Option Model)
    (service : Service Shared) : Service Shared :=
  { service with engine := { service.engine with model := model } }

variable [SharedCache Shared]

/- Loads the active model, if there is one. -/
def start : Call Shared Unit :=
  fun service =>
    match service.tables.activeModel with
    | .error error => (.error error, service)
    | .ok none => (.ok (), service)
    | .ok (some model) => (.ok (), service.load (some model))

------------------------------------------------------------
-- Checks
------------------------------------------------------------

/- The record of a check. -/
def checkRecord
    (now : Int)
    (request : Request)
    (response : Response) : AuditRecord :=
  let verdict := response.verdict
  .check
    { user := request.key.user
      relation := request.key.relation
      object := request.key.object
      decision := verdict.decision.name
      reason :=
        match verdict.decision.abort? with
        | none => []
        | some abort => abort.detail
      source := PermissionCache.sourceName response.source
      txid := verdict.txid
      expansions := verdict.expansions
      time := now
      duration := 0 }

/- Counts and records a response. -/
def note
    (now : Int)
    (request : Request)
    (response : Response)
    (service : Service Shared) : Service Shared :=
  (service.count
    (Statistics.countCheck response.verdict.decision
      response.source.isSome)).record
    (checkRecord now request response)

/- Whether a request asks about the latest state only. -/
def Cacheable (request : Request) : Prop :=
  request.txid = none ∧ request.contextual = []

instance (request : Request) : Decidable (Cacheable request) := by
  unfold Cacheable
  infer_instance

/- Looks a request up in the cache. -/
def lookUp
    (now : Int)
    (request : Request)
    (service : Service Shared) :
    Option (Bool × PermissionCache.Source) × Service Shared :=
  match service.cache with
  | none => (none, service)
  | some cache =>
      if Cacheable request then
        let (found, cache) := cache.get now request.key
        (found, { service with cache := some cache })
      else
        (none, service)

/- Keeps a decision in the cache. -/
def remember
    (now : Int)
    (request : Request)
    (decision : Decision)
    (service : Service Shared) : Service Shared :=
  if Cacheable request then
    match decision with
    | .aborted _ => service
    | .allowed =>
        service.changeCache fun cache =>
          cache.set now request.key true
    | .denied =>
        service.changeCache fun cache =>
          cache.set now request.key false
  else
    service

/- Decides a request, from the cache if possible. -/
def check
    (now : Int)
    (request : Request)
    (service : Service Shared) : Response × Service Shared :=
  let (found, service) := service.lookUp now request
  match found with
  | some (allowed, source) =>
      let response : Response :=
        { verdict := { decision := .ofAnswer allowed }
          source := some source }
      (response, service.note now request response)
  | none =>
      let verdict :=
        service.engine.check service.tables now request
      let response : Response := { verdict := verdict }
      (response,
        (service.remember now request verdict.decision).note
          now request response)

/- Decides requests one after the other. -/
def checkAll
    (now : Int) :
    List Request → Service Shared →
      List Response × Service Shared
  | [], service => ([], service)
  | request :: others, service =>
      let (response, service) := service.check now request
      let (responses, service) := checkAll now others service
      (response :: responses, service)

------------------------------------------------------------
-- Tuples
------------------------------------------------------------

/- Writes and deletes tuples. -/
def write
    (now : Int)
    (writes deletes : List TupleKey) : Call Shared Receipt :=
  fun service =>
    match onStore (Store.write now writes deletes) service with
    | (.error error, service) => (.error error, service)
    | (.ok receipt, service) =>
        let changed := receipt.written + receipt.deleted
        let service :=
          if 0 < changed then
            service.changeCache PermissionCache.invalidateAll
          else
            service
        (.ok receipt,
          (service.count (Statistics.countChanges changed)).record
            (.write
              { txid := receipt.txid
                written := receipt.written
                deleted := receipt.deleted
                time := now }))

/- Which tuples to read. -/
structure ReadRequest where
  user : Option Bytes := none
  relation : Option Bytes := none
  object : Option Bytes := none
  size : UInt64 := 100
  token : Bytes := []
  deriving DecidableEq, Repr

/- Reads the user of a request, if it names one. -/
def readUser
    (text : Option Bytes) : Except StoreError (Option UserRef) :=
  match text with
  | none => .ok none
  | some text =>
      match UserRef.parse? text with
      | none => .error (.invalidKey (.user text))
      | some user => .ok (some user)

/- Reads the object of a request, if it names one. -/
def readObject
    (text : Option Bytes) :
    Except StoreError (Option ObjectRef) :=
  match text with
  | none => .ok none
  | some text =>
      match ObjectRef.parse? text with
      | none => .error (.invalidKey (.object text))
      | some object => .ok (some object)

/-
  The filter of a request. A user without a relation also
  stands for the groups that are named after it.
-/
def readFilter
    (request : ReadRequest)
    (user : Option UserRef)
    (object : Option ObjectRef)
    (window : Window) : TupleFilter :=
  { userType := user.map fun user => user.object.type
    userId := user.map fun user => user.object.id
    userRelation := user.bind fun user => user.relation
    relation := request.relation
    objectType := object.map fun object => object.type
    objectId := object.map fun object => object.id
    window := window }

/- Reads a page of the live tuples, the newest first. -/
def read
    (request : ReadRequest)
    (service : Service Shared) :
    Except StoreError (Page TupleKey) := do
  let offset ← Page.readToken request.token
  let size := Page.effectiveSize request.size
  let user ← readUser request.user
  let object ← readObject request.object
  let found ← service.tables.find
    (readFilter request user object (Page.window offset size))
  return Page.ofLookup (found.map StoredTuple.key) offset size

/-
  The objects among some ids on which a check is allowed. The
  clock has a course for the check of each object.
-/
def allowedObjectsAlong
    (courses : (object : Bytes) → Clock.Course)
    (txid : Int)
    (user relation type : Bytes)
    (ids : List Bytes)
    (service : Service Shared) : List Bytes :=
  (ids.map fun id => ObjectRef.text ⟨type, id⟩).filter
    fun object =>
      (service.engine.checkAlong service.tables (courses object)
        { key := ⟨user, relation, object⟩
          txid := some txid }).decision = .allowed

/-
  The objects of a type on which a user has a relation. Only
  objects with tuples on them are looked at, and those whose
  check is aborted are left out.
-/
def listObjectsAlong
    (courses : (object : Bytes) → Clock.Course)
    (user relation type : Bytes)
    (size : UInt64)
    (token : Bytes)
    (service : Service Shared) :
    Except StoreError (Page Bytes) := do
  let offset ← Page.readToken token
  let _ ← readUser (some user)
  match service.engine.model with
  | none => .error .noActiveModel
  | some model =>
      if (model.schema.find? type relation).isNone then
        .error (.undefinedRelation relation type)
      else do
        let txid ← service.tables.lastTxid
        let ids ← service.tables.objectIds type (.snapshot txid)
        Page.cut
          (service.allowedObjectsAlong courses txid user relation
            type ids)
          offset (Page.effectiveSize size)

/- Those that are allowed while the clock stands still. -/
def allowedObjects
    (now : Int)
    (txid : Int)
    (user relation type : Bytes)
    (ids : List Bytes)
    (service : Service Shared) : List Bytes :=
  service.allowedObjectsAlong (fun _ => .still now) txid user
    relation type ids

/- The same objects while the clock stands still. -/
def listObjects
    (now : Int)
    (user relation type : Bytes)
    (size : UInt64)
    (token : Bytes)
    (service : Service Shared) :
    Except StoreError (Page Bytes) :=
  service.listObjectsAlong (fun _ => .still now) user relation
    type size token

/-
  The users of the live tuples with a relation on an object,
  of the given types or of all if none is given.
-/
def listUsers
    (object relation : Bytes)
    (types : List Bytes)
    (size : UInt64)
    (token : Bytes)
    (service : Service Shared) :
    Except StoreError (Page Bytes) := do
  let offset ← Page.readToken token
  match ObjectRef.parse? object with
  | none => .error (.invalidKey (.object object))
  | some reference =>
      let found ←
        service.tables.tuplesOn .live reference (some relation)
      let users := (found.map fun tuple => tuple.parts.user).filter
        fun user => types.isEmpty || types.contains user.object.type
      Page.cut (users.map UserRef.text) offset
        (Page.effectiveSize size)

------------------------------------------------------------
-- Models
------------------------------------------------------------

/- The record of what happened to a model. -/
def modelRecord
    (now : Int)
    (event : String)
    (model : Option Model)
    (errors warnings : Nat) : AuditRecord :=
  .model
    { event := utf8 event
      model := (model.map Model.id).getD []
      version := (model.map Model.version).getD []
      errors := errors
      warnings := warnings
      time := now }

/- Uses a model that has become active. -/
def use
    (now : Int)
    (model : Model)
    (service : Service Shared) : Service Shared :=
  ((service.load (some model)).changeCache
    PermissionCache.clear).record
    (modelRecord now "activated" (some model) 0 0)

/- Stores a model, and uses it if it is to be active. -/
def writeModel
    (now : Int)
    (source : Bytes)
    (activate : Bool) : Call Shared ModelCreation :=
  fun service =>
    match onStore (Store.createModel now source activate) service with
    | (.error error, service) => (.error error, service)
    | (.ok creation, service) =>
        let event :=
          if creation.compilation.succeeded then "created"
          else "rejected"
        let service := service.record
          (modelRecord now event creation.model
            creation.compilation.errors.length
            creation.compilation.warnings.length)
        match creation.model with
        | none => (.ok creation, service)
        | some model =>
            (.ok creation,
              if activate then service.use now model else service)

/- The model of a version, or else the active one. -/
def readModel
    (version : Option Bytes)
    (service : Service Shared) : Except StoreError Model :=
  match version with
  | some version => service.tables.modelByVersion version
  | none =>
      match service.tables.activeModel with
      | .error error => .error error
      | .ok none => .error .modelNotFound
      | .ok (some model) => .ok model

/- Makes a stored model the active one and uses it. -/
def activateModel
    (now : Int)
    (id : Bytes) : Call Shared Model :=
  fun service =>
    match onStore (Store.activateModel id) service with
    | (.error error, service) => (.error error, service)
    | (.ok model, service) => (.ok model, service.use now model)

end Service

end Rebac
