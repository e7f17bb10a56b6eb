import Rebac.Audit.Line
import Rebac.Audit.Timestamp

/-
  This file defines the records of an audit log and how
  severe they are.

  Key definitions include:
    * `Severity`
    * `Severity.ofName`
    * `AuditRecord`
    * `AuditRecord.severity`
    * `AuditRecord.members`
    * `AuditRecord.line`
-/

namespace Rebac

------------------------------------------------------------
-- Severities
------------------------------------------------------------

/- How severe a record is. -/
inductive Severity where
  | debug
  | info
  | warn
  | error
  deriving DecidableEq, Repr

namespace Severity

/- Severities from the least to the greatest. -/
def rank : Severity → Nat
  | .debug => 0
  | .info => 1
  | .warn => 2
  | .error => 3

/- The name of a severity. -/
def name : Severity → Bytes
  | .debug => utf8 "debug"
  | .info => utf8 "info"
  | .warn => utf8 "warn"
  | .error => utf8 "error"

/- The severity that a setting names; otherwise `info`. -/
def ofName (text : Bytes) : Severity :=
  if text = utf8 "trace" ∨ text = utf8 "debug" then
    .debug
  else if text = utf8 "warn" then
    .warn
  else if text = utf8 "error" ∨ text = utf8 "critical" ∨
      text = utf8 "off" then
    .error
  else
    .info

end Severity

------------------------------------------------------------
-- Records
------------------------------------------------------------

namespace AuditRecord

/- A request that was decided. -/
structure Check where
  user : Bytes
  relation : Bytes
  object : Bytes
  decision : Bytes
  reason : Bytes
  source : Bytes
  txid : Int
  expansions : Nat
  time : Int
  duration : Int
  deriving DecidableEq, Repr

/- A batch that was written. -/
structure Write where
  txid : Int
  written : Nat
  deleted : Nat
  time : Int
  deriving DecidableEq, Repr

/- Something that happened to a model. -/
structure ModelEvent where
  event : Bytes
  model : Bytes
  version : Bytes
  errors : Nat
  warnings : Nat
  time : Int
  deriving DecidableEq, Repr

end AuditRecord

/- What an audit log records. -/
inductive AuditRecord where
  | check (entry : AuditRecord.Check)
  | write (entry : AuditRecord.Write)
  | model (entry : AuditRecord.ModelEvent)
  | note (severity : Severity) (text : Bytes)
  deriving DecidableEq, Repr

namespace AuditRecord

/-
  How severe a record is. Aborted checks and rejected models
  are warnings.
-/
def severity : AuditRecord → Severity
  | .check entry =>
      if entry.decision = utf8 "aborted" then .warn else .info
  | .write _ => .info
  | .model entry =>
      if entry.event = utf8 "rejected" then .warn else .info
  | .note level _ => level

------------------------------------------------------------
-- Lines
------------------------------------------------------------

/- A member that holds a text. -/
def textMember (name : String) (text : Bytes) : Line.Member :=
  { name := utf8 name
    content := .text text }

/- A member that holds a number. -/
def numberMember (name : String) (number : Int) : Line.Member :=
  { name := utf8 name
    content := .number number }

/- The member that holds a time. -/
def timeMember (time : Int) : Line.Member :=
  textMember "timestamp" (Timestamp.text time)

/- The members of a check's line. -/
def Check.members (entry : Check) : List Line.Member :=
  [textMember "event" (utf8 "check"),
    textMember "user" entry.user,
    textMember "relation" entry.relation,
    textMember "object" entry.object,
    textMember "decision" entry.decision,
    textMember "reason" entry.reason,
    textMember "cache_source" entry.source,
    numberMember "txid" entry.txid,
    numberMember "expansions" entry.expansions,
    timeMember entry.time,
    numberMember "duration_us" entry.duration]

/- The members of a write's line. -/
def Write.members (entry : Write) : List Line.Member :=
  [textMember "event" (utf8 "write"),
    numberMember "txid" entry.txid,
    numberMember "written" entry.written,
    numberMember "deleted" entry.deleted,
    timeMember entry.time]

/- The members of a model event's line. -/
def ModelEvent.members (entry : ModelEvent) : List Line.Member :=
  [textMember "event" (utf8 "model_" ++ entry.event),
    textMember "model_id" entry.model,
    textMember "version_id" entry.version,
    numberMember "error_count" entry.errors,
    numberMember "warning_count" entry.warnings,
    timeMember entry.time]

/- The line of a record; a note is written as it is. -/
def line : AuditRecord → Bytes
  | .check entry => Line.render entry.members
  | .write entry => Line.render entry.members
  | .model entry => Line.render entry.members
  | .note _ text => text

end AuditRecord

end Rebac
