import CrazyHarness.A2A.Graphs
import CrazyHarness.A2A.Orchestration
import CrazyHarness.Agents.Coverage
import CrazyHarness.Agents.Governance
import CrazyHarness.Agents.GovernedLoop
import CrazyHarness.Agents.History
import CrazyHarness.Agents.Loop
import CrazyHarness.Agents.ModelAccounts
import CrazyHarness.Agents.Planning
import CrazyHarness.Agents.Progress
import CrazyHarness.Agents.Recovery
import CrazyHarness.Agents.Resampling
import CrazyHarness.Agents.Turns
import CrazyHarness.Agents.Usage
import CrazyHarness.Capabilities.Compiler
import CrazyHarness.Capabilities.Disclosure
import CrazyHarness.Capabilities.Mounts
import CrazyHarness.Checkpoints.TreeHash
import CrazyHarness.Context.Artifacts
import CrazyHarness.Context.Builder
import CrazyHarness.Context.Microcompact
import CrazyHarness.Context.PairBoundaries
import CrazyHarness.Context.SafePrefix
import CrazyHarness.Core.Events
import CrazyHarness.Core.Hashing
import CrazyHarness.Core.TextFiles
import CrazyHarness.Evals.Advance
import CrazyHarness.Evals.Arms
import CrazyHarness.Evals.CampaignBudget
import CrazyHarness.Evals.Evolution
import CrazyHarness.Evals.Facts
import CrazyHarness.Evals.Recommendation
import CrazyHarness.Evals.Releases
import CrazyHarness.Evals.Reports
import CrazyHarness.Evals.Reuse
import CrazyHarness.Evals.Statistics
import CrazyHarness.Evals.Symmetry
import CrazyHarness.Frontend.CampaignRequests
import CrazyHarness.Frontend.Overtaking
import CrazyHarness.Frontend.PendingCampaign
import CrazyHarness.Kernel.AgentRuns
import CrazyHarness.Kernel.Attempts
import CrazyHarness.Kernel.Calls
import CrazyHarness.Kernel.Causation
import CrazyHarness.Kernel.Checks
import CrazyHarness.Kernel.Completion
import CrazyHarness.Kernel.Contracts
import CrazyHarness.Kernel.Decisions
import CrazyHarness.Kernel.Facts
import CrazyHarness.Kernel.Identities
import CrazyHarness.Kernel.Isolation
import CrazyHarness.Kernel.Loads
import CrazyHarness.Kernel.Materialize
import CrazyHarness.Kernel.Passes
import CrazyHarness.Kernel.Peers
import CrazyHarness.Kernel.PlanPayloads
import CrazyHarness.Kernel.Plans
import CrazyHarness.Kernel.Reads
import CrazyHarness.Kernel.Submit
import CrazyHarness.Lib.DateTexts
import CrazyHarness.Lib.DateTime
import CrazyHarness.Lib.DepthFirst
import CrazyHarness.Lib.Except
import CrazyHarness.Lib.FileSystem
import CrazyHarness.Lib.Framing
import CrazyHarness.Lib.Html
import CrazyHarness.Lib.Json
import CrazyHarness.Lib.JsonEquality
import CrazyHarness.Lib.Occurrences
import CrazyHarness.Lib.Paths
import CrazyHarness.Lib.Pool
import CrazyHarness.Lib.Progress
import CrazyHarness.Lib.Rotation
import CrazyHarness.Lib.Run
import CrazyHarness.Lib.Sha256
import CrazyHarness.Lib.Sorting
import CrazyHarness.Lib.Table
import CrazyHarness.Lib.Traced
import CrazyHarness.Lib.Words
import CrazyHarness.Memory.Governance
import CrazyHarness.Memory.Store
import CrazyHarness.Runtime.Acks
import CrazyHarness.Runtime.Cancellation
import CrazyHarness.Runtime.Checkpoint
import CrazyHarness.Runtime.CheckpointRetries
import CrazyHarness.Runtime.Cooperative
import CrazyHarness.Runtime.CooperativeRuns
import CrazyHarness.Runtime.Ensures
import CrazyHarness.Runtime.Fairness
import CrazyHarness.Runtime.Inbox
import CrazyHarness.Runtime.Leases
import CrazyHarness.Runtime.Mailbox
import CrazyHarness.Runtime.MailboxCounter
import CrazyHarness.Runtime.Outbox
import CrazyHarness.Runtime.Readiness
import CrazyHarness.Runtime.Renewal
import CrazyHarness.Runtime.Routing
import CrazyHarness.Runtime.Scheduler
import CrazyHarness.Runtime.Selection
import CrazyHarness.Runtime.Store
import CrazyHarness.Runtime.TerminalWindows
import CrazyHarness.Runtime.Terminals
import CrazyHarness.Runtime.WakeUps
import CrazyHarness.Runtime.Writes
import CrazyHarness.Store.Absorbing
import CrazyHarness.Store.Bundles
import CrazyHarness.Store.Commands
import CrazyHarness.Store.Fencing
import CrazyHarness.Store.ModelBudget
import CrazyHarness.Store.ModelCalls
import CrazyHarness.Store.Projections
import CrazyHarness.Store.Replay
import CrazyHarness.Store.Schema
import CrazyHarness.Store.Staleness
import CrazyHarness.Taskpacks.RepoDiff
import CrazyHarness.Taskpacks.RepoFixture
import CrazyHarness.Taskpacks.RepoTools
import CrazyHarness.Taskpacks.ResearchPages
import CrazyHarness.Taskpacks.ResearchReport
import CrazyHarness.Taskpacks.ResearchSources
import CrazyHarness.Tools.AtMostOnce
import CrazyHarness.Tools.Batches
import CrazyHarness.Tools.Executions
import CrazyHarness.Tools.Ledger
import CrazyHarness.Tools.Pipeline
import CrazyHarness.Tools.Preparation
import CrazyHarness.Tools.Progress
import CrazyHarness.Tools.Results
import CrazyHarness.Tools.Sessions
import CrazyHarness.Tools.Validation
