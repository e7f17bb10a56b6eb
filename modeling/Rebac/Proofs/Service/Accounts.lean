import Rebac.Proofs.Service.Listing
import Rebac.Proofs.Store.Changelog

/-
  This file proves that a service counts and records what it
  has answered.

  Responses come from the cache or from the engine, and some
  are aborted. Batches succeed or fail, and some change
  nothing. The responses, the counts, the records of the log
  and the entries of the log of changes are kept apart from
  each other, and they always agree.

  Key definitions include:
    * `Statistics.Counts`
    * `Service.Reply`
    * `Service.Reply.record`
    * `Service.Delivery`
    * `Service.Step`
    * `Service.steps`
    * `AuditLog.Holds`
    * `Service.Accounts`

  Key theorems include:
    * `Service.Accounts.handle`
    * `Service.Accounts.follow`
    * `Service.accounts_of_follow`
-/

namespace Rebac

------------------------------------------------------------
-- Counts
------------------------------------------------------------

namespace Statistics

/-
  Statistics are those of some responses: each is counted
  once by its decision, and so are those from the cache.
-/
structure Counts
    (statistics : Statistics)
    (responses : List Response) : Prop where
  checks : statistics.checks = responses.length
  total : statistics.checks =
    statistics.allowed + statistics.denied + statistics.aborted
  allowed : statistics.allowed =
    responses.countP fun response =>
      response.verdict.decision = .allowed
  denied : statistics.denied =
    responses.countP fun response =>
      response.verdict.decision = .denied
  aborted : statistics.aborted =
    responses.countP fun response =>
      response.verdict.decision.abort?.isSome
  cacheHits : statistics.cacheHits =
    responses.countP fun response => response.source.isSome

variable {statistics : Statistics}
variable {responses : List Response}

/- One of the counts of decisions grows, and no other one. -/
theorem countCheck_eq
    (decision : Decision)
    (fromCache : Bool)
    (statistics : Statistics) :
    statistics.countCheck decision fromCache =
      { statistics with
        checks := statistics.checks + 1
        allowed := statistics.allowed +
          if decision = .allowed then 1 else 0
        denied := statistics.denied +
          if decision = .denied then 1 else 0
        aborted := statistics.aborted +
          if decision.abort?.isSome then 1 else 0
        cacheHits := statistics.cacheHits +
          if fromCache then 1 else 0 } := by
  cases decision <;> rfl

/- Every decision is one of the three. -/
theorem shares_eq_one (decision : Decision) :
    ((if decision = .allowed then 1 else 0) +
        (if decision = .denied then 1 else 0) +
        if decision.abort?.isSome then 1 else 0) =
      1 := by
  cases decision <;> rfl

theorem Counts.countCheck
    (hCounts : statistics.Counts responses)
    (response : Response) :
    (statistics.countCheck response.verdict.decision
      response.source.isSome).Counts
        (responses ++ [response]) := by
  rw [countCheck_eq]
  constructor
  · rw [List.length_append, ← hCounts.checks]
    rfl
  · have hTotal := hCounts.total
    have hOne := shares_eq_one response.verdict.decision
    dsimp only
    omega
  · simp [List.countP_append, List.countP_singleton,
      hCounts.allowed]
  · simp [List.countP_append, List.countP_singleton,
      hCounts.denied]
  · simp [List.countP_append, List.countP_singleton,
      hCounts.aborted]
  · simp [List.countP_append, List.countP_singleton,
      hCounts.cacheHits]

/- What changes is counted apart from the responses. -/
theorem Counts.countChanges
    (hCounts : statistics.Counts responses)
    (count : Nat) :
    (statistics.countChanges count).Counts responses :=
  ⟨hCounts.checks, hCounts.total, hCounts.allowed,
    hCounts.denied, hCounts.aborted, hCounts.cacheHits⟩

end Statistics

------------------------------------------------------------
-- Answers
------------------------------------------------------------

/- The requests that an operation asks to be decided. -/
def Service.Operation.requests :
    Service.Operation → List Request
  | .check request => [request]
  | .checkAll requests => requests
  | _ => []

/- The responses that are returned to whoever asked. -/
def Service.Outcome.decided : Service.Outcome → List Response
  | .responses given => given
  | _ => []

namespace Service

/- A request, when it was decided, and the response to it. -/
structure Reply where
  now : Int
  request : Request
  response : Response

/-
  The record of a reply: what was asked, the words for the
  decision and for where it was found, and what is known of
  an abort and of the evaluation.
-/
def Reply.record (reply : Reply) : AuditRecord :=
  let asked := reply.request.key
  let verdict := reply.response.verdict
  .check
    { user := asked.user
      relation := asked.relation
      object := asked.object
      decision :=
        match verdict.decision with
        | .allowed => utf8 "allowed"
        | .denied => utf8 "denied"
        | .aborted _ => utf8 "aborted"
      reason :=
        match verdict.decision with
        | .aborted abort => abort.detail
        | _ => []
      source :=
        match reply.response.source with
        | none => utf8 "none"
        | some .near => utf8 "l1"
        | some .shared => utf8 "l2"
      txid := verdict.txid
      expansions := verdict.expansions
      time := reply.now
      duration := 0 }

/- The receipt of a batch, and when it was written. -/
structure Delivery where
  now : Int
  receipt : Receipt

/- The record of a batch. -/
def Delivery.record (delivery : Delivery) : AuditRecord :=
  .write
    { txid := delivery.receipt.txid
      written := delivery.receipt.written
      deleted := delivery.receipt.deleted
      time := delivery.now }

/- An operation, when it was carried out, and its outcome. -/
structure Step where
  now : Int
  operation : Operation
  outcome : Outcome

/- The responses of a step and what they answer. -/
def Step.replies (step : Step) : List Reply :=
  List.zipWith (Reply.mk step.now) step.operation.requests
    step.outcome.decided

/- The receipt of a step, if it is a batch that succeeds. -/
def Step.deliveries (step : Step) : List Delivery :=
  match step.outcome with
  | .receipt (.ok receipt) => [⟨step.now, receipt⟩]
  | _ => []

/- What a service records of a response is its record. -/
theorem checkRecord_eq (reply : Reply) :
    checkRecord reply.now reply.request reply.response =
      reply.record := by
  rcases reply with ⟨now, request, verdict, source⟩
  rcases verdict with ⟨decision, txid, expansions, depth⟩
  cases decision <;> rcases source with _ | _ | _ <;> rfl

section

variable {Shared : Type} [SharedCache Shared]

/- The step that an event is, if it is an operation. -/
def stepsOf
    (event : Event)
    (service : Service Shared) : List Step :=
  match event with
  | .operation now operation =>
      [⟨now, operation, (service.perform now operation).1⟩]
  | _ => []

/- The operations among some events, with their outcomes. -/
def steps : List Event → Service Shared → List Step
  | [], _ => []
  | event :: others, service =>
      service.stepsOf event ++ steps others (service.handle event)

/- Every request of a batch has its response. -/
theorem responses_checkAll
    (now : Int)
    (requests : List Request)
    (service : Service Shared) :
    (List.zipWith (Reply.mk now) requests
        (service.checkAll now requests).1).map Reply.response =
      (service.checkAll now requests).1 := by
  induction requests generalizing service with
  | nil => rfl
  | cons request others hOthers =>
      exact congrArg _ (hOthers (service.check now request).2)

/- No response is without a request. -/
theorem responses_replies
    (events : List Event)
    (service : Service Shared) :
    ((service.steps events).flatMap Step.replies).map
        Reply.response =
      (service.steps events).flatMap fun step =>
        step.outcome.decided := by
  induction events generalizing service with
  | nil => rfl
  | cons event others hOthers =>
      rw [steps, List.flatMap_append, List.flatMap_append,
        List.map_append, hOthers]
      congr 1
      cases event with
      | start => rfl
      | block table statement => rfl
      | unblock table statement => rfl
      | operation now operation =>
          rw [stepsOf, List.flatMap_singleton,
            List.flatMap_singleton]
          cases operation with
          | checkAll requests =>
              exact responses_checkAll now requests service
          | _ => rfl

end

end Service

------------------------------------------------------------
-- Records
------------------------------------------------------------

namespace AuditRecord

/- Whether a record is one of a check. -/
def isCheck : AuditRecord → Bool
  | .check _ => true
  | _ => false

/- Whether a record is one of a batch. -/
def isWrite : AuditRecord → Bool
  | .write _ => true
  | _ => false

end AuditRecord

/-
  A log that keeps all but what is for debugging has one
  record for each reply and each batch, and no other ones of
  checks or batches.
-/
structure AuditLog.Holds
    (log : AuditLog)
    (replies : List Service.Reply)
    (deliveries : List Service.Delivery) : Prop where
  least : log.least = .info
  checks : log.records.filter AuditRecord.isCheck =
    replies.map Service.Reply.record
  writes : log.records.filter AuditRecord.isWrite =
    deliveries.map Service.Delivery.record

/- Only notes are for debugging. -/
theorem AuditRecord.severity_ne_debug
    {entry : AuditRecord}
    (hNote : ∀ level text, entry ≠ .note level text) :
    entry.severity ≠ .debug := by
  cases entry with
  | check entry =>
      rw [severity]
      split <;> exact Severity.noConfusion
  | write entry => exact Severity.noConfusion
  | model entry =>
      rw [severity]
      split <;> exact Severity.noConfusion
  | note level text => exact absurd rfl (hNote level text)

/- A record that is added is kept behind the others. -/
theorem AuditLog.Holds.add
    {log : AuditLog}
    {entry : AuditRecord}
    {replies newReplies : List Service.Reply}
    {deliveries newDeliveries : List Service.Delivery}
    (hHolds : log.Holds replies deliveries)
    (hNote : ∀ level text, entry ≠ .note level text)
    (hCheck : [entry].filter AuditRecord.isCheck =
      newReplies.map Service.Reply.record)
    (hWrite : [entry].filter AuditRecord.isWrite =
      newDeliveries.map Service.Delivery.record) :
    (log.add entry).Holds (replies ++ newReplies)
      (deliveries ++ newDeliveries) := by
  have hAdmits : log.Admits entry := by
    rw [AuditLog.Admits, hHolds.least]
    have hSevere := AuditRecord.severity_ne_debug hNote
    cases hLevel : entry.severity with
    | debug => exact absurd hLevel hSevere
    | info => decide
    | warn => decide
    | error => decide
  rw [AuditLog.add, if_pos hAdmits]
  refine ⟨hHolds.least, ?_, ?_⟩
  · rw [List.filter_append, List.map_append, hHolds.checks,
      hCheck]
  · rw [List.filter_append, List.map_append, hHolds.writes,
      hWrite]

------------------------------------------------------------
-- Accounts
------------------------------------------------------------

namespace Service

variable {Shared : Type}
variable {service after : Service Shared}
variable {now : Int}
variable {replies : List Reply}
variable {deliveries : List Delivery}

/-
  What a service has counted and recorded is what it has
  replied and delivered. It counts as many changes of tuples
  as the store has logged.
-/
structure Accounts
    (service : Service Shared)
    (replies : List Reply)
    (deliveries : List Delivery) : Prop where
  counts : ∃ statistics,
    service.statistics = some statistics ∧
      statistics.Counts (replies.map Reply.response) ∧
      statistics.tupleChanges = service.tables.changes.length
  records : ∃ log,
    service.log = some log ∧ log.Holds replies deliveries

/- Only the counts, the records and the changes matter. -/
theorem Accounts.congr
    (hAccounts : service.Accounts replies deliveries)
    (hStatistics : after.statistics = service.statistics)
    (hLog : after.log = service.log)
    (hChanges : after.tables.changes = service.tables.changes) :
    after.Accounts replies deliveries := by
  refine ⟨?_, ?_⟩
  · rw [hStatistics, hChanges]
    exact hAccounts.counts
  · rw [hLog]
    exact hAccounts.records

/- Nothing is replied or delivered. -/
theorem Accounts.silent
    (hAccounts : service.Accounts replies deliveries) :
    service.Accounts (replies ++ []) (deliveries ++ []) := by
  rwa [List.append_nil, List.append_nil]

/- What happens to models is recorded, but nothing else. -/
theorem Accounts.recordModel
    (hAccounts : service.Accounts replies deliveries)
    (event : String)
    (model : Option Model)
    (errors warnings : Nat) :
    (service.record
      (modelRecord now event model errors warnings)).Accounts
        replies deliveries := by
  rcases hAccounts.records with ⟨log, hLog, hHolds⟩
  have hAdded :
      (log.add
        (modelRecord now event model errors warnings)).Holds
          (replies ++ []) (deliveries ++ []) :=
    hHolds.add nofun rfl rfl
  rw [List.append_nil, List.append_nil] at hAdded
  refine ⟨hAccounts.counts, _, ?_, hAdded⟩
  rw [Service.record, hLog]
  rfl

/- A response is counted, and it is recorded. -/
theorem Accounts.note
    (hAccounts : service.Accounts replies deliveries)
    (request : Request)
    (response : Response) :
    (service.note now request response).Accounts
      (replies ++ [⟨now, request, response⟩]) deliveries := by
  rcases hAccounts.counts with
    ⟨statistics, hStatistics, hCounts, hChanges⟩
  rcases hAccounts.records with ⟨log, hLog, hHolds⟩
  have hRecord := checkRecord_eq ⟨now, request, response⟩
  have hAdded :
      (log.add (checkRecord now request response)).Holds
        (replies ++ [⟨now, request, response⟩])
        (deliveries ++ []) :=
    hHolds.add nofun (congrArg (fun entry => [entry]) hRecord)
      rfl
  rw [List.append_nil] at hAdded
  refine ⟨⟨statistics.countCheck response.verdict.decision
      response.source.isSome, ?_, ?_, ?_⟩, _, ?_, hAdded⟩
  · rw [Service.note, Service.record, Service.count, hStatistics]
    rfl
  · rw [List.map_append]
    exact hCounts.countCheck response
  · rw [Statistics.countCheck_eq]
    exact hChanges
  · rw [Service.note, Service.record, Service.count, hLog]
    rfl

------------------------------------------------------------
-- Operations
------------------------------------------------------------

/- A service whose store was used for something else. -/
theorem Accounts.onStore
    {Result : Type}
    {action : Store.Action Result}
    {event : Store.Event}
    (hSteady : service.store.Steady)
    (hAccounts : service.Accounts replies deliveries)
    (hEvent :
      (action.run service.store).2 = service.store.perform event)
    (hOther : ∀ now writes deletes,
      event ≠ .write now writes deletes) :
    (service.onStore action).2.Accounts replies deliveries := by
  have hStored :
      (service.onStore action).2.store =
        service.store.perform event :=
    hEvent
  refine hAccounts.congr rfl rfl ?_
  rw [tables, hStored]
  exact Store.changes_perform hSteady hOther

/- Blocking a statement is neither counted nor recorded. -/
theorem Accounts.disturb
    (hSteady : service.store.Steady)
    (hAccounts : service.Accounts replies deliveries)
    (event : Store.Event)
    (hOther : ∀ now writes deletes,
      event ≠ .write now writes deletes) :
    (service.disturb event).Accounts replies deliveries :=
  hAccounts.congr rfl rfl
    (Store.changes_perform hSteady hOther)

theorem Accounts.start
    (hAccounts : service.Accounts replies deliveries) :
    service.start.2.Accounts replies deliveries := by
  unfold Service.start
  split <;> exact hAccounts.congr rfl rfl rfl

section

variable [SharedCache Shared]

/- A lookup does not change anything but the cache. -/
theorem exists_lookUp
    (now : Int)
    (request : Request)
    (service : Service Shared) :
    ∃ cache,
      (service.lookUp now request).2 =
        { service with cache := cache } := by
  unfold Service.lookUp
  split
  · exact ⟨service.cache, rfl⟩
  · split
    · exact ⟨_, rfl⟩
    · exact ⟨service.cache, rfl⟩

/- Nor does what is remembered. -/
theorem exists_remember
    (now : Int)
    (request : Request)
    (decision : Decision)
    (service : Service Shared) :
    ∃ cache,
      service.remember now request decision =
        { service with cache := cache } := by
  unfold Service.remember
  split
  · cases decision with
    | allowed => exact ⟨_, rfl⟩
    | denied => exact ⟨_, rfl⟩
    | aborted abort => exact ⟨service.cache, rfl⟩
  · exact ⟨service.cache, rfl⟩

/- What the engine decides and the cache keeps is noted once. -/
theorem Accounts.check
    (hAccounts : service.Accounts replies deliveries)
    (now : Int)
    (request : Request) :
    (service.check now request).2.Accounts
      (replies ++
        [⟨now, request, (service.check now request).1⟩])
      deliveries := by
  rcases exists_lookUp now request service with
    ⟨cache, hCache⟩
  rcases hLookUp : service.lookUp now request with
    ⟨_ | ⟨allowed, source⟩, after⟩
  · rw [hLookUp] at hCache
    rw [check_of_none hLookUp]
    rcases exists_remember now request
        (after.engine.check after.tables now request).decision
        after with
      ⟨kept, hKept⟩
    dsimp only
    rw [hKept]
    refine Accounts.note ?_ request _
    subst hCache
    exact hAccounts.congr rfl rfl rfl
  · rw [hLookUp] at hCache
    rw [check_of_found hLookUp]
    refine Accounts.note ?_ request _
    subst hCache
    exact hAccounts.congr rfl rfl rfl

theorem Accounts.checkAll
    (hAccounts : service.Accounts replies deliveries)
    (now : Int)
    (requests : List Request) :
    (service.checkAll now requests).2.Accounts
      (replies ++
        List.zipWith (Reply.mk now) requests
          (service.checkAll now requests).1)
      deliveries := by
  induction requests generalizing service replies with
  | nil =>
      rw [List.zipWith_nil_left, List.append_nil]
      exact hAccounts
  | cons request others hOthers =>
      have hRest := hOthers (hAccounts.check now request)
      rw [List.append_assoc] at hRest
      exact hRest

/- What a service notes of a batch that succeeds. -/
theorem write_of_ok
    {writes deletes : List TupleKey}
    {receipt : Receipt}
    {stored : Store}
    (hRun :
      (Store.write now writes deletes).run service.store =
        (.ok receipt, stored)) :
    let result := service.write now writes deletes
    result.1 = .ok receipt ∧
      result.2.store = stored ∧
      result.2.statistics =
        service.statistics.map
          (Statistics.countChanges
            (receipt.written + receipt.deleted)) ∧
      result.2.log =
        service.log.map fun log =>
          log.add (Delivery.record ⟨now, receipt⟩) := by
  unfold Service.write onStore
  rw [hRun]
  dsimp only
  split <;> exact ⟨rfl, rfl, rfl, rfl⟩

/- A batch that fails leaves no trace. -/
theorem Accounts.write_error
    {writes deletes : List TupleKey}
    {error : StoreError}
    {stored : Store}
    (hSteady : service.store.Steady)
    (hAccounts : service.Accounts replies deliveries)
    (hRun :
      (Store.write now writes deletes).run service.store =
        (.error error, stored)) :
    (service.write now writes deletes).1 = .error error ∧
      (service.write now writes deletes).2.Accounts
        replies deliveries := by
  have hSame := Store.write_error hSteady.idle hRun
  unfold Service.write Service.onStore
  rw [hRun]
  refine ⟨rfl, hAccounts.congr rfl rfl ?_⟩
  exact congrArg
    (fun database : Database => database.tables.changes) hSame

/- A batch that succeeds counts what it has logged. -/
theorem Accounts.write_ok
    {writes deletes : List TupleKey}
    {receipt : Receipt}
    {stored : Store}
    (hSteady : service.store.Steady)
    (hAccounts : service.Accounts replies deliveries)
    (hRun :
      (Store.write now writes deletes).run service.store =
        (.ok receipt, stored)) :
    (service.write now writes deletes).1 = .ok receipt ∧
      (service.write now writes deletes).2.Accounts replies
        (deliveries ++ [⟨now, receipt⟩]) := by
  rcases write_of_ok hRun with
    ⟨hReceipt, hStore, hCounted, hRecorded⟩
  rcases hAccounts.counts with
    ⟨statistics, hStatistics, hCounts, hChanges⟩
  rcases hAccounts.records with ⟨log, hLog, hHolds⟩
  have hAdded :
      (log.add (Delivery.record ⟨now, receipt⟩)).Holds
        (replies ++ []) (deliveries ++ [⟨now, receipt⟩]) :=
    hHolds.add nofun rfl rfl
  rw [List.append_nil] at hAdded
  rw [hStatistics] at hCounted
  rw [hLog] at hRecorded
  refine ⟨hReceipt,
    ⟨_, hCounted, hCounts.countChanges _, ?_⟩,
    _, hRecorded, hAdded⟩
  rw [tables, hStore,
    Store.length_changes_of_write hSteady hRun]
  exact congrArg (· + (receipt.written + receipt.deleted))
    hChanges

theorem Accounts.write
    (hSteady : service.store.Steady)
    (hAccounts : service.Accounts replies deliveries)
    (now : Int)
    (writes deletes : List TupleKey) :
    (service.write now writes deletes).2.Accounts replies
      (deliveries ++
        Step.deliveries
          ⟨now, .write writes deletes,
            .receipt (service.write now writes deletes).1⟩) := by
  rcases hRun :
      (Store.write now writes deletes).run service.store with
    ⟨error | receipt, stored⟩
  · rcases hAccounts.write_error hSteady hRun with
      ⟨hError, hFailed⟩
    rw [hError, Step.deliveries, List.append_nil]
    exact hFailed
  · rcases hAccounts.write_ok hSteady hRun with
      ⟨hReceipt, hWritten⟩
    rw [hReceipt]
    exact hWritten

theorem Accounts.use
    (hAccounts : service.Accounts replies deliveries)
    (now : Int)
    (model : Model) :
    (service.use now model).Accounts replies deliveries := by
  have hLoaded :
      ((service.load (some model)).changeCache
        PermissionCache.clear).Accounts replies deliveries :=
    hAccounts.congr rfl rfl rfl
  exact hLoaded.recordModel "activated" (some model) 0 0

theorem Accounts.writeModel
    (hSteady : service.store.Steady)
    (hAccounts : service.Accounts replies deliveries)
    (now : Int)
    (source : Bytes)
    (activate : Bool) :
    (service.writeModel now source activate).2.Accounts
      replies deliveries := by
  have hEvent :
      ((Store.createModel now source activate).run
          service.store).2 =
        service.store.perform
          (.createModel now source activate) :=
    rfl
  have hStored :=
    hAccounts.onStore hSteady hEvent nofun
  unfold Service.writeModel
  rcases hRun :
      service.onStore (Store.createModel now source activate) with
    ⟨error | creation, after⟩
  · rw [hRun] at hStored
    exact hStored
  · rw [hRun] at hStored
    dsimp only
    split
    · exact hStored.recordModel _ _ _ _
    · split
      · exact (hStored.recordModel _ _ _ _).use now _
      · exact hStored.recordModel _ _ _ _

theorem Accounts.activateModel
    (hSteady : service.store.Steady)
    (hAccounts : service.Accounts replies deliveries)
    (now : Int)
    (id : Bytes) :
    (service.activateModel now id).2.Accounts
      replies deliveries := by
  have hEvent :
      ((Store.activateModel id).run service.store).2 =
        service.store.perform (.activateModel id) :=
    rfl
  have hStored :=
    hAccounts.onStore hSteady hEvent nofun
  unfold Service.activateModel
  rcases hRun :
      service.onStore (Store.activateModel id) with
    ⟨error | model, after⟩
  · rw [hRun] at hStored
    exact hStored
  · rw [hRun] at hStored
    exact hStored.use now model

------------------------------------------------------------
-- Runs
------------------------------------------------------------

/- Every event is accounted for. -/
theorem Accounts.handle
    (hSteady : service.store.Steady)
    (hAccounts : service.Accounts replies deliveries)
    (event : Event) :
    (service.handle event).Accounts
      (replies ++
        (service.stepsOf event).flatMap Step.replies)
      (deliveries ++
        (service.stepsOf event).flatMap Step.deliveries) := by
  cases event with
  | start => exact hAccounts.start.silent
  | block table statement =>
      exact (hAccounts.disturb hSteady _
        fun _ _ _ => Store.Event.noConfusion).silent
  | unblock table statement =>
      exact (hAccounts.disturb hSteady _
        fun _ _ _ => Store.Event.noConfusion).silent
  | operation now operation =>
      rw [stepsOf, List.flatMap_singleton, List.flatMap_singleton]
      cases operation with
      | check request =>
          have hChecked := hAccounts.check now request
          rw [← List.append_nil deliveries] at hChecked
          exact hChecked
      | checkAll requests =>
          have hChecked := hAccounts.checkAll now requests
          rw [← List.append_nil deliveries] at hChecked
          exact hChecked
      | write writes deletes =>
          have hWritten :=
            hAccounts.write hSteady now writes deletes
          rw [← List.append_nil replies] at hWritten
          exact hWritten
      | writeModel source activate =>
          exact (hAccounts.writeModel hSteady now source
            activate).silent
      | activateModel id =>
          exact (hAccounts.activateModel hSteady now id).silent
      | _ => exact hAccounts.silent

/- So are all events. -/
theorem Accounts.follow
    (hReachable : service.Reachable)
    (hAccounts : service.Accounts replies deliveries)
    (events : List Event) :
    (service.follow events).Accounts
      (replies ++ (service.steps events).flatMap Step.replies)
      (deliveries ++
        (service.steps events).flatMap Step.deliveries) := by
  induction events generalizing service replies deliveries with
  | nil => exact hAccounts.silent
  | cons event others hOthers =>
      have hHandled :=
        hAccounts.handle hReachable.matched.steady event
      have hRest := hOthers (hReachable.event event) hHandled
      rw [List.append_assoc, List.append_assoc,
        ← List.flatMap_append, ← List.flatMap_append] at hRest
      exact hRest

/-
  Whatever happens to a service without rows that has counted
  and recorded nothing yet: it has counted all responses that
  it returned, each by its decision and those from the cache,
  and as many changes of tuples as are logged. Of each of the
  responses and of each batch that was written it has a single
  record, in the order in which they were returned.
-/
theorem accounts_of_follow
    {since : Int}
    (hBlank : service.Blank)
    (hStatistics : service.statistics = some { since := since })
    (hLog : service.log = some { least := .info })
    (events : List Event) :
    let steps := service.steps events
    ((steps.flatMap Step.replies).map Reply.response =
        steps.flatMap fun step => step.outcome.decided) ∧
      (service.follow events).Accounts
        (steps.flatMap Step.replies)
        (steps.flatMap Step.deliveries) := by
  have hStart : service.Accounts [] [] := by
    refine ⟨⟨_, hStatistics, ?_, ?_⟩, _, hLog, ?_⟩
    · exact ⟨rfl, rfl, rfl, rfl, rfl, rfl⟩
    · rw [tables, hBlank.store.changes]
      rfl
    · exact ⟨rfl, rfl, rfl⟩
  exact ⟨responses_replies events service,
    hStart.follow (.blank hBlank) events⟩

end

end Service

------------------------------------------------------------
-- An Example
------------------------------------------------------------

namespace Friends

/- A service that counts and records what it does. -/
def audited : Service Keyspace :=
  { Editions.service with
    log := some { least := .info }
    statistics := some { since := 0 } }

/- Whether somebody is a friend of Bob. -/
def friendship (user : Bytes) : Request :=
  { key := ⟨user, utf8 "friend", utf8 "user:bob"⟩ }

/- Alice is known from the cache when she is asked for again. -/
def events : List Service.Event :=
  [.operation 1000 (.writeModel source true),
    .operation 2000 (.write writes []),
    .operation 3000 (.check (friendship alice)),
    .operation 4000
      (.checkAll
        [friendship alice, friendship (utf8 "user:carol"),
          friendship []])]

theorem audited_accounts :
    audited.Blank ∧
      audited.statistics = some { since := 0 } ∧
      audited.log = some { least := .info } ∧
      (audited.follow events).Accounts
        ((audited.steps events).flatMap Service.Step.replies)
        ((audited.steps events).flatMap
          Service.Step.deliveries) ∧
      (audited.follow events).statistics =
        some
          { since := 0
            checks := 4
            allowed := 2
            denied := 1
            aborted := 1
            cacheHits := 1
            tupleChanges := 2 } := by
  have hBlank : audited.Blank :=
    ⟨Sharing.store_blank, rfl, rfl⟩
  have hAccounts :=
    Service.accounts_of_follow hBlank rfl rfl events
  exact ⟨hBlank, rfl, rfl, hAccounts.2, by decide +kernel⟩

end Friends

end Rebac
