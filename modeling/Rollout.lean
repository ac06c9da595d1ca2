import Rollout.Blueprint.Basic
import Rollout.Blueprint.Inline
import Rollout.Config.Basic
import Rollout.Config.Execution
import Rollout.Config.Reader
import Rollout.Config.Writer
import Rollout.Dag.Basic
import Rollout.Dag.Export
import Rollout.Dag.Indexed
import Rollout.Dag.Operations
import Rollout.Dag.Order
import Rollout.Dag.Reach
import Rollout.Dag.Refusal
import Rollout.Dag.Walk
import Rollout.Data.Table
import Rollout.Error
import Rollout.Hash.Blake3
import Rollout.Json.Basic
import Rollout.Json.Reader
import Rollout.Json.Writer
import Rollout.Logging
import Rollout.Lookup.Basic
import Rollout.Lookup.Token
import Rollout.Plan.Action
import Rollout.Plan.Basic
import Rollout.Plan.Event
import Rollout.Plan.Execution
import Rollout.Plan.Job
import Rollout.Plan.Journal
import Rollout.Plan.Paired
import Rollout.Plan.PollPolicy
import Rollout.Plan.Rehearsal
import Rollout.Plan.Run
import Rollout.Plan.ScriptReader
import Rollout.Plan.Status
import Rollout.Plan.Step
import Rollout.Plan.StepGraph
import Rollout.Plan.Worker
import Rollout.Proofs.Blueprint.Placeholders
import Rollout.Proofs.Config.Layers
import Rollout.Proofs.Dag.Built
import Rollout.Proofs.Dag.Closure
import Rollout.Proofs.Dag.Congruence
import Rollout.Proofs.Dag.Counting
import Rollout.Proofs.Dag.Duality
import Rollout.Proofs.Dag.Edits
import Rollout.Proofs.Dag.Ends
import Rollout.Proofs.Dag.Entries
import Rollout.Proofs.Dag.Exports
import Rollout.Proofs.Dag.InPlace
import Rollout.Proofs.Dag.Indexed
import Rollout.Proofs.Dag.NewEdge
import Rollout.Proofs.Dag.Order
import Rollout.Proofs.Dag.Path
import Rollout.Proofs.Dag.Precedence
import Rollout.Proofs.Dag.Reach
import Rollout.Proofs.Dag.Reduction
import Rollout.Proofs.Dag.Representation
import Rollout.Proofs.Dag.Restrict
import Rollout.Proofs.Dag.Same
import Rollout.Proofs.Dag.Search
import Rollout.Proofs.Dag.Transitive
import Rollout.Proofs.Dag.Transpose
import Rollout.Proofs.Dag.Unresolved
import Rollout.Proofs.Data.Except
import Rollout.Proofs.Data.Lookup
import Rollout.Proofs.Data.Table
import Rollout.Proofs.Json.Reordered
import Rollout.Proofs.Lookup.Extraction
import Rollout.Proofs.Lookup.Grammar
import Rollout.Proofs.Lookup.Reads
import Rollout.Proofs.Lookup.Seam
import Rollout.Proofs.Plan.Apart
import Rollout.Proofs.Plan.Asked
import Rollout.Proofs.Plan.Build
import Rollout.Proofs.Plan.Chronicle
import Rollout.Proofs.Plan.Closing
import Rollout.Proofs.Plan.Contract
import Rollout.Proofs.Plan.DependencyOrder
import Rollout.Proofs.Plan.Entries
import Rollout.Proofs.Plan.Envelopes
import Rollout.Proofs.Plan.FinalStatus
import Rollout.Proofs.Plan.Footprint
import Rollout.Proofs.Plan.Invariant
import Rollout.Proofs.Plan.Isolation
import Rollout.Proofs.Plan.Iterated
import Rollout.Proofs.Plan.Moves
import Rollout.Proofs.Plan.Outcome
import Rollout.Proofs.Plan.Paired
import Rollout.Proofs.Plan.Job
import Rollout.Proofs.Plan.Progress
import Rollout.Proofs.Plan.Quiet
import Rollout.Proofs.Plan.Recording
import Rollout.Proofs.Plan.Rehearsal
import Rollout.Proofs.Plan.Replay
import Rollout.Proofs.Plan.Report
import Rollout.Proofs.Plan.Schedule
import Rollout.Proofs.Plan.Slots
import Rollout.Proofs.Plan.StepGraph
import Rollout.Proofs.Plan.Stride
import Rollout.Proofs.Plan.Targets
import Rollout.Proofs.Plan.Telling
import Rollout.Proofs.Plan.Transcript
import Rollout.Proofs.Plan.Visits
import Rollout.Proofs.Provider.Creation
import Rollout.Proofs.Provider.Ending
import Rollout.Proofs.Provider.Locality
import Rollout.Proofs.Provider.Record
import Rollout.Proofs.Provider.Refused
import Rollout.Proofs.Provider.Settling
import Rollout.Proofs.Provider.Submissions
import Rollout.Proofs.Provider.Tasks
import Rollout.Proofs.Provider.Terms
import Rollout.Proofs.Text.Cut
import Rollout.Proofs.Text.Digits
import Rollout.Proofs.Text.Words
import Rollout.Proofs.Time.Calendar
import Rollout.Proofs.Time.RoundTrip
import Rollout.Proofs.Walk.Dispatch
import Rollout.Proofs.Walk.Invariant
import Rollout.Proofs.Walk.Result
import Rollout.Proofs.Workspace.BuildCourse
import Rollout.Proofs.Workspace.BuildStages
import Rollout.Proofs.Workspace.Cleared
import Rollout.Proofs.Workspace.Deployed
import Rollout.Proofs.Workspace.Footprint
import Rollout.Proofs.Workspace.Idempotent
import Rollout.Proofs.Workspace.OutputNames
import Rollout.Proofs.Workspace.Plain
import Rollout.Proofs.Workspace.Planning
import Rollout.Proofs.Workspace.Rendering
import Rollout.Proofs.Workspace.Requirements
import Rollout.Proofs.Workspace.Resolution
import Rollout.Proofs.Workspace.Resumed
import Rollout.Proofs.Workspace.Schedule
import Rollout.Proofs.Workspace.SettledDependencies
import Rollout.Proofs.Workspace.Submitting
import Rollout.Proofs.Workspace.Teardown
import Rollout.Proofs.Workspace.Wiring
import Rollout.Provider.Basic
import Rollout.Provider.Prepared
import Rollout.Provider.Simulator
import Rollout.Stack.Basic
import Rollout.Stack.State
import Rollout.Text.Basic
import Rollout.Text.Lowercase
import Rollout.Text.Quoted
import Rollout.Time.Reader
import Rollout.Time.Timestamp
import Rollout.Workspace.Basic
import Rollout.Workspace.Build
import Rollout.Workspace.Destroy
import Rollout.Yaml.Cursor
import Rollout.Yaml.Node
import Rollout.Yaml.Scalar
import Rollout.Yaml.Token
import Rollout.Yaml.Value
