import TalosWorkflow.Steps.Inversion
import TalosWorkflow.Ledger.Counting
import TalosWorkflow.Ledger.Invariant
import TalosWorkflow.Ledger.Runs
import TalosWorkflow.Ledger.FreshRuns
import TalosWorkflow.Runs.Chains
import TalosWorkflow.Runs.Histories
import TalosWorkflow.Runs.Moves
import TalosWorkflow.Coverage.Invariant
import TalosWorkflow.Coverage.Runs
import TalosWorkflow.Gating.Departures
import TalosWorkflow.Gating.Skips
import TalosWorkflow.Gating.Seeds
import TalosWorkflow.Gating.Results
import TalosWorkflow.Gating.Edges
import TalosWorkflow.Gating.Quotas
import TalosWorkflow.Adapters
import TalosWorkflow.Policy.Inheritance
import TalosWorkflow.Policy.DryRun
import TalosWorkflow.Policy.Approvals
import TalosWorkflow.Library.Fields
import TalosWorkflow.Library.Registry
import TalosWorkflow.Replies
import TalosWorkflow.Replay.NonceCache
import TalosWorkflow.Replay.SingleUse
import TalosWorkflow.Library.Retry
import TalosWorkflow.Replay.Dispatcher
import TalosWorkflow.Replay.Binding
import TalosWorkflow.Pipelines.Sequential
import TalosWorkflow.Exits.Context
import TalosWorkflow.Exits.Redaction
import TalosWorkflow.Handlers.Nested
import TalosWorkflow.Handlers.Gates
import TalosWorkflow.Exits.Nesting
import TalosWorkflow.Delivery.Awaited
import TalosWorkflow.Delivery.Steps
import TalosWorkflow.Delivery.Results
import TalosWorkflow.Delivery.Runs
import TalosWorkflow.Signing.Rendering
import TalosWorkflow.Signing.Texts
import TalosWorkflow.Signing.Jobs
import TalosWorkflow.Signing.Pipelines
import TalosWorkflow.Documents.Kinds
import TalosWorkflow.Documents.Codec
import TalosWorkflow.Documents.Loader
import TalosWorkflow.Documents.Representation
import TalosWorkflow.Documents.Trigger
import TalosWorkflow.Documents.Entries
import TalosWorkflow.Documents.Flags
import TalosWorkflow.Documents.Validator
import TalosWorkflow.Documents.Builder
import TalosWorkflow.Documents.Programs
import TalosWorkflow.Handlers.Triggers
import TalosWorkflow.Handlers.Depth
import TalosWorkflow.Metering.Process
import TalosWorkflow.Metering.Limits
import TalosWorkflow.Metering.Calls
import TalosWorkflow.Exits.ErrorEdges
import TalosWorkflow.Signing.Results
import TalosWorkflow.Signing.Domains
import TalosWorkflow.Replay.Capacity
import TalosWorkflow.Handlers.Verdicts
import TalosWorkflow.Truncation
import TalosWorkflow.Handlers.Votes
import TalosWorkflow.Handlers.Ensembles
import TalosWorkflow.Handlers.Reflections
import TalosWorkflow.Handlers.AgentLoops
import TalosWorkflow.Handlers.Collapses
import TalosWorkflow.Handlers.AgentHistories
import TalosWorkflow.Schedules.Runs
import TalosWorkflow.Secrets.Grants
import TalosWorkflow.Inputs
import TalosWorkflow.Parents
import TalosWorkflow.Secrets.Dispatches
import TalosWorkflow.Secrets.Substitution
import TalosWorkflow.Library.Counted
import TalosWorkflow.Retries.Backoff
import TalosWorkflow.Retries.Sends
import TalosWorkflow.Retries.Freshness
import TalosWorkflow.Timeouts
import TalosWorkflow.Library.Bounded
import TalosWorkflow.Handlers.Loops
import TalosWorkflow.Library.Links
import TalosWorkflow.LinearChains
import TalosWorkflow.Library.Workload
import TalosWorkflow.Entries.Endings
import TalosWorkflow.Entries.Calls
import TalosWorkflow.Library.Journal
import TalosWorkflow.Timelines.Events
import TalosWorkflow.Timelines.Causality
import TalosWorkflow.Timelines.Balance
import TalosWorkflow.Library.Records
import TalosWorkflow.Wire.Messages
import TalosWorkflow.Wire.RoundTrips
import TalosWorkflow.Wire.Acceptance
import TalosWorkflow.Wire.Resends
import TalosWorkflow.Handlers.Locals
import TalosWorkflow.Handlers.Snapshots
import TalosWorkflow.Library.Prefetch
import TalosWorkflow.Fetching.Speculation
import TalosWorkflow.Secrets.Transport
import TalosWorkflow.Library.Shuffle
import TalosWorkflow.Timelines.Audits
import TalosWorkflow.Fetching.Subworkflows
import TalosWorkflow.Schedules.Resumes
