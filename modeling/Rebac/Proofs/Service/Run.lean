import Rebac.Service.Basic

/-
  This file defines runs of a service: its operations, one
  after the other, each at a time of its own. Times need not
  grow.

  Key definitions include:
    * `Service.Operation`
    * `Service.Outcome`
    * `Service.perform`
    * `Service.run`

  Key theorems include:
    * `Service.run_invariant`
-/

namespace Rebac

namespace Service

------------------------------------------------------------
-- Operations
------------------------------------------------------------

/- What can be asked of a service. -/
inductive Operation where
  | check (request : Request)
  | checkAll (requests : List Request)
  | write (writes deletes : List TupleKey)
  | writeModel (source : Bytes) (activate : Bool)
  | activateModel (id : Bytes)
  | read (request : ReadRequest)
  | listObjects
      (user relation type : Bytes) (size : UInt64) (token : Bytes)
  | listUsers
      (object relation : Bytes) (types : List Bytes)
      (size : UInt64) (token : Bytes)
  | readModel (version : Option Bytes)
  | listModels
  | readChanges (since : Int) (limit : UInt64)
  | readStatistics
  deriving DecidableEq, Repr

/- What an operation results in. -/
inductive Outcome where
  | responses (responses : List Response)
  | receipt (result : Except StoreError Receipt)
  | creation (result : Except StoreError ModelCreation)
  | model (result : Except StoreError Model)
  | tuples (result : Except StoreError (Page TupleKey))
  | names (result : Except StoreError (Page Bytes))
  | models (result : Except StoreError (List Model))
  | changes (result : Except StoreError (List Change))
  | statistics
      (counts : Statistics.Snapshot)
      (cache : Option PermissionCache.Statistics)

variable {Shared : Type} [SharedCache Shared]

/- Carries out an operation at a time. -/
def perform
    (now : Int)
    (operation : Operation)
    (service : Service Shared) : Outcome × Service Shared :=
  match operation with
  | .check request =>
      let (response, after) := service.check now request
      (.responses [response], after)
  | .checkAll requests =>
      let (responses, after) := service.checkAll now requests
      (.responses responses, after)
  | .write writes deletes =>
      let (result, after) := service.write now writes deletes
      (.receipt result, after)
  | .writeModel source activate =>
      let (result, after) := service.writeModel now source activate
      (.creation result, after)
  | .activateModel id =>
      let (result, after) := service.activateModel now id
      (.model result, after)
  | .read request => (.tuples (service.read request), service)
  | .listObjects user relation type size token =>
      (.names
        (service.listObjects now user relation type size token),
        service)
  | .listUsers object relation types size token =>
      (.names
        (service.listUsers object relation types size token),
        service)
  | .readModel version =>
      (.model (service.readModel version), service)
  | .listModels => (.models service.tables.modelList, service)
  | .readChanges since limit =>
      (.changes (service.tables.changesSince since limit),
        service)
  | .readStatistics =>
      (.statistics (service.snapshot now)
        (service.cache.map PermissionCache.statistics),
        service)

------------------------------------------------------------
-- Runs
------------------------------------------------------------

/- Carries out operations, each at its time. -/
def run :
    List (Int × Operation) → Service Shared → Service Shared
  | [], service => service
  | (now, operation) :: others, service =>
      run others (service.perform now operation).2

/- What every operation leaves true, every run leaves true. -/
theorem run_invariant
    {Holds : Service Shared → Prop}
    (hPerform : ∀ now operation service, Holds service →
      Holds (service.perform now operation).2)
    (operations : List (Int × Operation))
    {service : Service Shared}
    (hStart : Holds service) :
    Holds (service.run operations) := by
  induction operations generalizing service with
  | nil => exact hStart
  | cons step others hOthers =>
      exact hOthers
        (hPerform step.1 step.2 service hStart)

end Service

end Rebac
