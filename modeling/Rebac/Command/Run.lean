import Rebac.Command.Environment
import Rebac.Command.Host
import Rebac.Command.Outcome
import Rebac.Config.Reader

/-
  This file defines what the program does.

  Settings are loaded first, then the database is opened and
  the service started, and only then is the command looked
  at; of several faults the first in this order is reported.
  Validating a source needs no database.

  Key definitions include:
    * `Start`
    * `Config.fromHost`
    * `Config.service`
    * `Command.perform`
    * `Command.run`
-/

namespace Rebac

/-
  What a run begins with: the environment, the time and a
  supply of identifiers.
-/
structure Start where
  environment : Environment
  now : Int
  ids : IdSource

variable {Effect : Type → Type} [Monad Effect]

------------------------------------------------------------
-- Settings
------------------------------------------------------------

namespace Config

/- Loads the settings of an environment. -/
def fromHost
    (reader : Yaml.Reader)
    (host : Host Effect)
    (environment : Environment) :
    Effect (Except Fault Config) := do
  match environment.configPath with
  | none => return .ok (environment.apply {})
  | some path =>
      match ← host.locate path with
      | none => return .error (.unresolved path)
      | some origin =>
          let text := (← host.read path).getD []
          return (loadBy reader origin text).value.map
            environment.apply

/- The sizes and lifetimes of the cache. -/
def cacheSettings (config : Config) : PermissionCache.Settings :=
  let cache := config.cache
  { nearItems := cache.nearItems
    nearLifetime := cache.nearLifetime
    sharedLifetime := cache.sharedLifetime
    filterItems := cache.filterItems
    filterRate := cache.filterRate
    keyStart := cache.server.keyStart }

/- The client of the shared cache, if that is enabled. -/
def client? (config : Config) : Option Valkey.Client :=
  let server := config.cache.server
  if server.enabled then
    some
      { host := server.host
        port := server.port
        patience := server.timeout
        network := {} }
  else
    none

/-
  The service over some tables. The network of its client
  has no servers, so calls to a shared cache always fail and
  decisions are only kept within the run.
-/
def service
    (config : Config)
    (start : Start)
    (tables : Tables) : Service Valkey.Client :=
  let engine := config.engine
  { store :=
      { database := { tables := tables }
        ids := start.ids }
    engine :=
      { limits :=
          { maxDepth := engine.maxDepth
            maxExpansions := engine.maxExpansions
            deadline := engine.deadline } }
    cache :=
      if config.cache.enabled then
        some (PermissionCache.empty config.cacheSettings
          config.client?)
      else
        none
    log := some
      { least := Severity.ofName config.global.logLevel
        records := [] }
    statistics := some { since := start.now } }

end Config

------------------------------------------------------------
-- Commands
------------------------------------------------------------

namespace Command

/- Creates the tables that are missing, and starts. -/
def prepare : Service.Call Valkey.Client Unit :=
  fun service =>
    match Service.onStore Store.prepare service with
    | (.error failure, service) => (.error failure, service)
    | (.ok _, service) => Service.start service

/- Reports the result of a call. -/
def report
    {Result : Type}
    (outcome : Result → Outcome)
    (call : Service.Call Valkey.Client Result)
    (service : Service Valkey.Client) :
    Outcome × Service Valkey.Client :=
  let (result, service) := call service
  (Outcome.ofResult outcome result, service)

/-
  Carries out a command. The text is what the file that the
  command names holds.
-/
def perform
    (now : Int)
    (text : Bytes)
    (command : Command)
    (service : Service Valkey.Client) :
    Outcome × Service Valkey.Client :=
  let look {Result : Type}
      (outcome : Result → Outcome)
      (result : Except StoreError Result) :
      Outcome × Service Valkey.Client :=
    (Outcome.ofResult outcome result, service)
  match command with
  | .validate _ => (.ofValidation (compile text), service)
  | .applyModel _ active =>
      report (Outcome.ofCreation active)
        (Service.writeModel now text active) service
  | .activate id =>
      report Outcome.ofActivation
        (Service.activateModel now id) service
  | .readModel version =>
      look Outcome.ofModel (service.readModel version)
  | .listModels =>
      look Outcome.ofModels service.tables.modelList
  | .write key =>
      report Outcome.ofReceipt
        (Service.write now [key] []) service
  | .delete key =>
      report Outcome.ofReceipt
        (Service.write now [] [key]) service
  | .check key txid =>
      let (response, service) :=
        service.check now { key := key, txid := txid }
      (.ofResponse response, service)
  | .read request => look Outcome.ofTuples (service.read request)
  | .listObjects user relation type =>
      look Outcome.ofNames
        (service.listObjects now user relation type 100 [])
  | .listUsers object relation types =>
      look Outcome.ofNames
        (service.listUsers object relation types 100 [])
  | .changes since =>
      look Outcome.ofChanges
        (service.tables.changesSince since 1000)
  | .statistics =>
      look
        (Outcome.ofStatistics (service.snapshot now).counts
          (service.cache.map PermissionCache.statistics))
        service.tables.lastTxid

/- Carries out a command with the file that it names. -/
def withFile
    (host : Host Effect)
    (start : Start)
    (command : Command)
    (service : Service Valkey.Client) :
    Effect (Outcome × Service Valkey.Client) := do
  match command.path? with
  | none => return perform start.now [] command service
  | some path =>
      match ← host.read path with
      | none => return (.unopened path, service)
      | some text => return perform start.now text command service

------------------------------------------------------------
-- Runs
------------------------------------------------------------

/- What a run comes to, and the identifiers that it left. -/
structure Ending where
  outcome : Outcome
  ids : IdSource
  log : List AuditRecord := []
  logPath : Bytes := []

/- Carries out a command, or misuse, with the database. -/
def serve
    (host : Host Effect)
    (start : Start)
    (config : Config)
    (command : Except Misuse Command) : Effect Ending := do
  let path := config.storage.path
  match ← host.openTables path with
  | .error fault =>
      return {
        outcome := .error .failure fault.message
        ids := start.ids }
  | .ok tables =>
      let (prepared, service) :=
        prepare (config.service start tables)
      let (outcome, service) ←
        match prepared, command with
        | .error failure, _ => pure (.ofError failure, service)
        | .ok _, .error misuse => pure (.ofMisuse misuse, service)
        | .ok _, .ok command =>
            withFile host start command service
      host.saveTables path service.tables
      return {
        outcome := outcome
        ids := service.store.ids
        log := (service.log.map AuditLog.records).getD []
        logPath := config.global.logPath }

/- Validates the source in a file, if one is named. -/
def validateFile
    (host : Host Effect)
    (command : Except Misuse Command) : Effect Outcome := do
  match command with
  | .error misuse => return .ofMisuse misuse
  | .ok command =>
      let path := command.path?.getD []
      match ← host.read path with
      | none => return .unopened path
      | some text => return .ofValidation (compile text)

/- Runs the program with some arguments. -/
def run
    (host : Host Effect)
    (start : Start)
    (arguments : List Bytes) : Effect Ending := do
  let plain (outcome : Outcome) : Ending :=
    { outcome := outcome
      ids := start.ids }
  match arguments with
  | [] => return plain (.usage .misuse)
  | name :: _ =>
      if name ∈ helpWords then
        return plain (.usage .success)
      else
        match ← Config.fromHost Config.simpleReader host
            start.environment with
        | .error fault =>
            return plain (.error .failure fault.message)
        | .ok config =>
            if name = utf8 "validate" then
              return plain (← validateFile host (parse arguments))
            else
              serve host start config (parse arguments)

end Command

end Rebac
