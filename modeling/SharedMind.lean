import SharedMind.Py.Json
import SharedMind.Py.JsonText
import SharedMind.Py.JsonRoundTrip
import SharedMind.Py.Pattern
import SharedMind.Py.Bytes
import SharedMind.Py.DateTime
import SharedMind.Py.Codec
import SharedMind.Contract.Text
import SharedMind.Contract.Claim
import SharedMind.Contract.Continuity
import SharedMind.Contract.Registry
import SharedMind.Contract.Proposal
import SharedMind.Contract.Ledger
import SharedMind.Py.Store
import SharedMind.Kernel.Base
import SharedMind.Kernel.Continuity
import SharedMind.Kernel.Claims
import SharedMind.Kernel.Validate
import SharedMind.Kernel.StateRoot
import SharedMind.Kernel.Commit
import SharedMind.Kernel.System
import SharedMind.Kernel.Reducers
import SharedMind.Kernel.Steps
import SharedMind.Law.NoLostUpdate
import SharedMind.Py.RawJson
import SharedMind.Kernel.Receipts
import SharedMind.Kernel.Sequential
import SharedMind.Law.Idempotency
import SharedMind.Kernel.Verify
import SharedMind.Gen.HashChain
import SharedMind.Law.LedgerChain
import SharedMind.Kernel.Events
import SharedMind.Kernel.Audit
import SharedMind.Law.ReceiptChain
import SharedMind.Kernel.Phases
import SharedMind.Law.ReceiptOrder
import SharedMind.Kernel.Accepting
import SharedMind.Gen.RecordLog
import SharedMind.Kernel.History
import SharedMind.Law.Records
import SharedMind.Gen.Succession
import SharedMind.Law.Supersession
import SharedMind.Law.Evidence
import SharedMind.Py.JsonSize
import SharedMind.Gen.Episodes
import SharedMind.Kernel.Conflicts
import SharedMind.Law.ConflictTable
import SharedMind.Law.Contradictions
import SharedMind.Law.Prediction
import SharedMind.Law.References
import SharedMind.Py.Url
import SharedMind.Remote.Policy
import SharedMind.Remote.Decision
import SharedMind.Remote.Label
import SharedMind.Remote.Returned
import SharedMind.Remote.Spelling
import SharedMind.Remote.DenyByDefault
import SharedMind.Py.Lines
import SharedMind.Observe.Trace
import SharedMind.Observe.Buffer
import SharedMind.Observe.Buffered
import SharedMind.Observe.Finalizes
import SharedMind.Product.Audit
import SharedMind.Product.AuditChain
import SharedMind.Py.Freeform
import SharedMind.Product.Skill
import SharedMind.Product.Store
import SharedMind.Product.System
import SharedMind.Product.Linear
import SharedMind.Py.Sqlite
import SharedMind.Kernel.PublicConnection
import SharedMind.Law.ReadOnly
import SharedMind.Observe.Processes
import SharedMind.Observe.NotLost
import SharedMind.Py.Zip
import SharedMind.Product.Package
import SharedMind.Product.PackageRead
import SharedMind.Product.PackageTrip
import SharedMind.Gen.Raises
import SharedMind.Law.Failures
import SharedMind.Law.Total
import SharedMind.Law.EventsValid
import SharedMind.Workspace.Validation
import SharedMind.Law.Predicts
import SharedMind.Law.OneOutcome
import SharedMind.Law.Classification
import SharedMind.Product.Total
import SharedMind.Gen.Blocks
import SharedMind.Py.TextLines
import SharedMind.Ingest.Directives
import SharedMind.Ingest.Scanners
import SharedMind.Gen.Bfs
import SharedMind.Retrieval.ImpactPath
import SharedMind.Retrieval.Documents
import SharedMind.Retrieval.Modes
import SharedMind.Gen.RankFusion
import SharedMind.Retrieval.Hybrid
import SharedMind.Retrieval.Spans
import SharedMind.Gen.SelfSize
import SharedMind.Py.JsonBytes
import SharedMind.Law.Canonical
import SharedMind.Projection.Pack
import SharedMind.Projection.Requirement
import SharedMind.Adapters.Import
import SharedMind.Adapters.Mandate
import SharedMind.Setup.Hooks
import SharedMind.Setup.Preserved
import SharedMind.Projection.Build
import SharedMind.Gen.Loop
import SharedMind.Gen.Nesting
import SharedMind.Contract.Depth
import SharedMind.Gen.Sections
import SharedMind.Projection.Markdown
import SharedMind.Projection.Query
import SharedMind.Projection.Lossless
import SharedMind.Projection.Reachable
import SharedMind.Evaluation.Resolution
import SharedMind.Evaluation.Resolved
import SharedMind.Py.Sha256
import SharedMind.Evaluation.Unsupported
import SharedMind.Projection.Relations
import SharedMind.Projection.Pages
import SharedMind.Kernel.Replay
import SharedMind.Law.Replay
import SharedMind.Py.Tables
import SharedMind.Product.Lifecycle
import SharedMind.Py.Members
import SharedMind.Product.SkillReplay
import SharedMind.Law.Applied
import SharedMind.Service.WorkItems
import SharedMind.Contract.Tags
import SharedMind.Service.Progress
import SharedMind.Service.Sessions
import SharedMind.Gen.Paging
import SharedMind.Service.Pages
import SharedMind.Service.Status
import SharedMind.Service.Lookup
import SharedMind.Service.Alone
import SharedMind.Service.Contention
