import Rebac.Audit.Record

/-
  This file defines audit logs, which keep the records that
  are severe enough.

  Key definitions include:
    * `AuditLog`
    * `AuditLog.Admits`
    * `AuditLog.add`
-/

namespace Rebac

/- The least severity that is kept, and the records so far. -/
structure AuditLog where
  least : Severity
  records : List AuditRecord := []
  deriving DecidableEq, Repr

namespace AuditLog

/- Whether a record is severe enough to be kept. -/
def Admits (log : AuditLog) (record : AuditRecord) : Prop :=
  log.least.rank ≤ record.severity.rank

instance
    (log : AuditLog)
    (record : AuditRecord) : Decidable (log.Admits record) := by
  unfold Admits
  infer_instance

/- Adds a record behind the others if it is severe enough. -/
def add (log : AuditLog) (record : AuditRecord) : AuditLog :=
  if log.Admits record then
    { log with records := log.records ++ [record] }
  else
    log

end AuditLog

end Rebac
