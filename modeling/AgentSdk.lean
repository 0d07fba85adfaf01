import AgentSdk.Lib.Text
import AgentSdk.Lib.Json
import AgentSdk.Lib.JsonText
import AgentSdk.Lib.Table
import AgentSdk.Lib.Machine
import AgentSdk.Lib.Outcome
import AgentSdk.Lib.Calendar
import AgentSdk.Lib.Sha256
import AgentSdk.Delegation.Bounds
import AgentSdk.Delegation.Identity
import AgentSdk.Delegation.Tasks
import AgentSdk.Delegation.Commands
import AgentSdk.Delegation.Context
import AgentSdk.Delegation.Handlers
import AgentSdk.Delegation.Plan
import AgentSdk.Delegation.Memory
import AgentSdk.Delegation.Inversion
import AgentSdk.Delegation.Transition
import AgentSdk.Delegation.Frame
import AgentSdk.Delegation.Acts
import AgentSdk.Delegation.Commit
import AgentSdk.Delegation.Reachable
import AgentSdk.Delegation.Ledger
import AgentSdk.Delegation.Provider
import AgentSdk.Delegation.Lifecycle
import AgentSdk.Delegation.Idempotency
import AgentSdk.Delegation.Delivery
import AgentSdk.Lib.Utf8
import AgentSdk.Lib.JsonData
import AgentSdk.Acp.LineFramer
import AgentSdk.Acp.MessageWriter
import AgentSdk.Runtime.ExecutionInput
import AgentSdk.Runtime.InputLedger
import AgentSdk.Runtime.InputOwnership
import AgentSdk.Runtime.ResponseOnce
import AgentSdk.Runtime.ContextUsage
import AgentSdk.Lib.Paced
import AgentSdk.Lib.ByteFile
import AgentSdk.Lib.Joined
import AgentSdk.Lib.Merge
import AgentSdk.Sandbox.Paths
import AgentSdk.Sandbox.Records
import AgentSdk.Sandbox.Storage
import AgentSdk.Sandbox.Sort
import AgentSdk.Sandbox.Conflicts
import AgentSdk.Sandbox.MetadataLedger
import AgentSdk.Sandbox.SealedLedger
import AgentSdk.Sandbox.LedgerSet
import AgentSdk.Sandbox.Links
import AgentSdk.Sandbox.Confinement
import AgentSdk.Sandbox.CredentialPrefix
import AgentSdk.Lib.Stateful
import AgentSdk.Lib.Radix
import AgentSdk.Tar.Names
import AgentSdk.Tar.Header
import AgentSdk.Tar.HeaderBlock
import AgentSdk.Tar.Pax
import AgentSdk.Tar.Reader
import AgentSdk.Tar.Entry
import AgentSdk.Tar.Decode
import AgentSdk.Tar.Archive
import AgentSdk.Tar.Encode
import AgentSdk.Tar.Strict
import AgentSdk.Coordinator.Sequence
import AgentSdk.Coordinator.Schedule
import AgentSdk.Coordinator.Cuts
import AgentSdk.Coordinator.Slot
import AgentSdk.Coordinator.PhysicalSequencing
import AgentSdk.Journal.Records
import AgentSdk.Journal.Wire
import AgentSdk.Journal.Cells
import AgentSdk.Journal.Continuity
import AgentSdk.Journal.Frame
import AgentSdk.Journal.NoReplay
import AgentSdk.Journal.Obligations
import AgentSdk.Journal.Recovered
import AgentSdk.Journal.Reopen
import AgentSdk.Journal.Survive
import AgentSdk.Delegation.Fit
import AgentSdk.Delegation.Summary
import AgentSdk.Delegation.FailureProjection
import AgentSdk.Delegation.Pages
import AgentSdk.Delegation.Observations
import AgentSdk.Policy.Resolve
import AgentSdk.History.Mutations
import AgentSdk.Network.Agreement
import AgentSdk.Network.Broker
import AgentSdk.Acp.WriteLedger
import AgentSdk.Output.Admission
import AgentSdk.Docker.ChannelRuns
import AgentSdk.Evidence.Secrets
import AgentSdk.Evidence.Consistency
import AgentSdk.Acp.DiagnosticRuns
import AgentSdk.Provider.ControlRoom
import AgentSdk.Provider.Replies
import AgentSdk.Saved.Accounting
import AgentSdk.HostBindings.LifetimeRuns
import AgentSdk.History.Page
import AgentSdk.Tar.RoundTrip
