import Rebac.Check.Evaluate
import Rebac.Clock
import Rebac.Model.Basic
import Rebac.Store.Query

/-
  This file defines requests for decisions and how they are
  answered.

  A request is answered from one snapshot of the tuples,
  together with tuples that it brings itself. It is aborted
  if it makes no sense or if its evaluation is interrupted.

  Key definitions include:
    * `Request`
    * `Abort`
    * `Abort.reason`
    * `Abort.detail`
    * `Decision`
    * `Verdict`
    * `Limits`
    * `Engine`
    * `Engine.checkWithin`
    * `Engine.checkAlong`
    * `Engine.check`
-/

namespace Rebac

------------------------------------------------------------
-- Requests
------------------------------------------------------------

/-
  A request: whether a user has a relation on an object. It
  may ask about the snapshot at a transaction, bring tuples
  of its own, and give a time by which it is to be answered.
-/
structure Request where
  key : TupleKey
  txid : Option Int := none
  contextual : List TupleKey := []
  deadline : Option Int := none
  deriving DecidableEq, Repr

/- Why a request has no decision. -/
inductive Abort where
  | noActiveModel
  | invalidUser (text : Bytes)
  | invalidObject (text : Bytes)
  | unknownType (type : Bytes)
  | unknownRelation (relation type : Bytes)
  | invalidTuple (fault : TupleKey.Fault)
  | unreadable (error : StoreError)
  | interrupted (interruption : Interruption)
  deriving DecidableEq, Repr

/- The name of an interruption. -/
def Interruption.name : Interruption → Bytes
  | .maxDepth => utf8 "max-depth"
  | .maxExpansions => utf8 "max-expansions"
  | .deadline => utf8 "deadline"
  | .storage => utf8 "storage-error"

namespace Abort

/- The name of the kind of an abort. -/
def reason : Abort → Bytes
  | .noActiveModel => utf8 "no-active-model"
  | .invalidUser _ => utf8 "invalid-request"
  | .invalidObject _ => utf8 "invalid-request"
  | .unknownType _ => utf8 "unknown-type"
  | .unknownRelation _ _ => utf8 "unknown-relation"
  | .invalidTuple _ => utf8 "invalid-request"
  | .unreadable _ => Interruption.storage.name
  | .interrupted interruption => interruption.name

/- The wording of an abort. -/
def detail : Abort → Bytes
  | .noActiveModel => StoreError.noActiveModel.message
  | .invalidUser text => (TupleKey.Fault.user text).message
  | .invalidObject text => (TupleKey.Fault.object text).message
  | .unknownType type =>
      utf8 "type '" ++ type ++
        utf8 "' is not defined in the model"
  | .unknownRelation relation type =>
      (StoreError.undefinedRelation relation type).message
  | .invalidTuple fault =>
      utf8 "contextual tuple: " ++ fault.message
  | .unreadable error => error.message
  | .interrupted interruption => interruption.name

end Abort

/- What a request comes to. -/
inductive Decision where
  | allowed
  | denied
  | aborted (abort : Abort)
  deriving DecidableEq, Repr

namespace Decision

/- The name of a decision. -/
def name : Decision → Bytes
  | .allowed => utf8 "allowed"
  | .denied => utf8 "denied"
  | .aborted _ => utf8 "aborted"

/- The abort of a decision that was aborted. -/
def abort? : Decision → Option Abort
  | .aborted abort => some abort
  | _ => none

/- The decision for an answer. -/
def ofAnswer (answer : Bool) : Decision :=
  if answer then .allowed else .denied

end Decision

/-
  A decision with the snapshot that it is based on and what
  its evaluation used.
-/
structure Verdict where
  decision : Decision
  txid : Int := 0
  expansions : Nat := 0
  depth : Nat := 0
  deriving DecidableEq, Repr

------------------------------------------------------------
-- Engines
------------------------------------------------------------

/-
  The limits of all evaluations. A deadline of zero
  milliseconds stands for none.
-/
structure Limits where
  maxDepth : Nat := 25
  maxExpansions : Nat := 10000
  deadline : Nat := 0
  deriving DecidableEq, Repr

/- The model that decides, if there is one, and the limits. -/
structure Engine where
  model : Option Model := none
  limits : Limits := {}
  deriving Repr

namespace Engine

/- Reads the tuples that a request brings itself. -/
def readContextual :
    List TupleKey → Except Abort (List TupleKey.Parts)
  | [] => .ok []
  | key :: others =>
      match key.check with
      | .error fault => .error (.invalidTuple fault)
      | .ok parts => (readContextual others).map (parts :: ·)

/- The snapshot of a request; by default the latest one. -/
def snapshot
    (tables : Tables)
    (request : Request) : Except Abort Int :=
  match request.txid with
  | some txid => .ok txid
  | none =>
      match tables.lastTxid with
      | .error error => .error (.unreadable error)
      | .ok txid => .ok txid

/-
  Whether the time for a request has run out. A request that
  gives no time of its own has that of the limits, which
  begins when its evaluation starts.
-/
def expired
    (limits : Limits)
    (start now : Int)
    (request : Request) : Bool :=
  match request.deadline with
  | some deadline => deadline ≤ now
  | none =>
      0 < limits.deadline &&
        Clock.after start limits.deadline ≤ Clock.nanoseconds now

/-
  The users of the tuples with a relation on an object:
  those of the snapshot first, then those of the request.
-/
def visibleUsers
    (tables : Tables)
    (txid : Int)
    (contextual : List TupleKey.Parts)
    (relation : Bytes)
    (object : ObjectRef) : Option (List UserRef) :=
  match tables.tuplesOn (.snapshot txid) object (some relation) with
  | .error _ => none
  | .ok stored =>
      some (stored.map (fun tuple => tuple.parts.user) ++
        (contextual.filter fun parts =>
          parts.object = object ∧ parts.relation = relation).map
          fun parts => parts.user)

/- What a request asks, once it has been understood. -/
structure Question where
  schema : Schema
  user : UserRef
  node : Node
  contextual : List TupleKey.Parts
  txid : Int

/- Understands a request. -/
def understand
    (engine : Engine)
    (tables : Tables)
    (request : Request) : Except Abort Question :=
  match engine.model with
  | none => .error .noActiveModel
  | some model =>
      let key := request.key
      match UserRef.parse? key.user with
      | none => .error (.invalidUser key.user)
      | some user =>
          match ObjectRef.parse? key.object with
          | none => .error (.invalidObject key.object)
          | some object =>
              if ¬ model.schema.HasType object.type then
                .error (.unknownType object.type)
              else if (model.schema.find?
                  object.type key.relation).isNone then
                .error (.unknownRelation key.relation object.type)
              else
                match readContextual request.contextual with
                | .error abort => .error abort
                | .ok contextual =>
                    (snapshot tables request).map fun txid =>
                      { schema := model.schema
                        user := user
                        node := ⟨key.relation, object⟩
                        contextual := contextual
                        txid := txid }

/- The scene in which a question is evaluated. -/
def scene
    (tables : Tables)
    (bounds : Bounds)
    (question : Question) : Scene :=
  { schema := question.schema
    users :=
      visibleUsers tables question.txid question.contextual
    user := question.user
    bounds := bounds }

/- Answers a question within the given limits. -/
def answer
    (tables : Tables)
    (bounds : Bounds)
    (question : Question) : Verdict :=
  let (outcome, meter) :=
    (scene tables bounds question).evaluate
      (bounds.maxDepth + 1) [] question.node {}
  { decision :=
      match outcome with
      | .ok answer => .ofAnswer answer
      | .error interruption => .aborted (.interrupted interruption)
    txid := question.txid
    expansions := meter.expansions
    depth := meter.deepest }

/- Decides a request within the given limits. -/
def checkWithin
    (engine : Engine)
    (tables : Tables)
    (bounds : Bounds)
    (request : Request) : Verdict :=
  match engine.understand tables request with
  | .error abort => { decision := .aborted abort }
  | .ok question => answer tables bounds question

/- The limits of a request, by the clock at each look. -/
def boundsAlong
    (engine : Engine)
    (course : Clock.Course)
    (request : Request) : Bounds :=
  { maxDepth := engine.limits.maxDepth
    maxExpansions := engine.limits.maxExpansions
    expired := fun look =>
      expired engine.limits course.start (course.shows look)
        request }

/- Decides a request while the clock goes on. -/
def checkAlong
    (engine : Engine)
    (tables : Tables)
    (course : Clock.Course)
    (request : Request) : Verdict :=
  engine.checkWithin tables (engine.boundsAlong course request)
    request

/- The limits of a request while the clock stands still. -/
def boundsAt
    (engine : Engine)
    (now : Int)
    (request : Request) : Bounds :=
  engine.boundsAlong (.still now) request

/- Decides a request while the clock stands still. -/
def check
    (engine : Engine)
    (tables : Tables)
    (now : Int)
    (request : Request) : Verdict :=
  engine.checkWithin tables (engine.boundsAt now request) request

end Engine

end Rebac
