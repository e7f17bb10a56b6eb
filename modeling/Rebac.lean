import Rebac.Main
import Rebac.Proofs.Cache.Invalidation
import Rebac.Proofs.Check.Admission
import Rebac.Proofs.Check.Presence
import Rebac.Proofs.Check.Snapshot
import Rebac.Proofs.Check.TruthTable
import Rebac.Proofs.Language.RoundTrip
import Rebac.Proofs.Language.Extent
import Rebac.Proofs.Language.OffSide
import Rebac.Proofs.Language.Edit
import Rebac.Proofs.Model.Acceptance
import Rebac.Proofs.Resp.Stream
import Rebac.Proofs.Service.Alignment
import Rebac.Proofs.Service.Listing
import Rebac.Proofs.Service.Paging
import Rebac.Proofs.Service.Completeness
import Rebac.Proofs.Service.Accounts
import Rebac.Proofs.Check.Membership
import Rebac.Proofs.Store.Outage
import Rebac.Proofs.Store.Polling
import Rebac.Proofs.Valkey.Exchange
import Rebac.Proofs.Valkey.Execute
import Rebac.Proofs.Valkey.Journal
import Rebac.Proofs.Valkey.Recovery
import Rebac.Proofs.Check.Calls
import Rebac.Proofs.Resp.Command
import Rebac.Proofs.Check.Depth
import Rebac.Proofs.Model.Cycle
import Rebac.Proofs.Cache.Retention
import Rebac.Proofs.Service.Reading
import Rebac.Proofs.Service.Wrapping
import Rebac.Proofs.Cache.Selection
import Rebac.Proofs.Cache.Emptying
import Rebac.Proofs.Cache.Gate
import Rebac.Proofs.Valkey.Scan
import Rebac.Proofs.Valkey.Sweep
import Rebac.Proofs.Tuple.Reference
import Rebac.Proofs.Audit.Record
import Rebac.Proofs.Config.Isolation
import Rebac.Proofs.Command.Environment
import Rebac.Proofs.Command.Arguments
import Rebac.Proofs.Ulid
