import DatabaseOperator.Calendar
import DatabaseOperator.Cluster.Request
import DatabaseOperator.Cluster.Resources
import DatabaseOperator.Cluster.Secrets
import DatabaseOperator.Credential
import DatabaseOperator.Database.Basic
import DatabaseOperator.Database.Patch
import DatabaseOperator.Dialogue
import DatabaseOperator.Dictionary
import DatabaseOperator.Error
import DatabaseOperator.Firewall.Diff
import DatabaseOperator.Firewall.Rule
import DatabaseOperator.Http.Message
import DatabaseOperator.Http.Url
import DatabaseOperator.Json.Binary
import DatabaseOperator.Json.Decode
import DatabaseOperator.Json.Merge
import DatabaseOperator.Json.Number
import DatabaseOperator.Json.Reader
import DatabaseOperator.Json.Value
import DatabaseOperator.Json.Yaml
import DatabaseOperator.Main
import DatabaseOperator.Operator.CommandLine
import DatabaseOperator.Operator.Config
import DatabaseOperator.Operator.Pass
import DatabaseOperator.Operator.Probe
import DatabaseOperator.Operator.Usage
import DatabaseOperator.Operator.Watch
import DatabaseOperator.Proofs.Trace
import DatabaseOperator.Provider.Calls
import DatabaseOperator.Provider.Client
import DatabaseOperator.Provider.Endpoint
import DatabaseOperator.Provider.Manager
import DatabaseOperator.Provider.Wire
import DatabaseOperator.Resource.Basic
import DatabaseOperator.Resource.Condition
import DatabaseOperator.Resource.Definition
import DatabaseOperator.Resource.Lifecycle
import DatabaseOperator.Resource.Metadata
import DatabaseOperator.Resource.Names
import DatabaseOperator.Resource.Spec
import DatabaseOperator.Simulation.Cluster
import DatabaseOperator.Simulation.Failures
import DatabaseOperator.Simulation.Provider
import DatabaseOperator.Simulation.Server
import DatabaseOperator.Simulation.Stores
import DatabaseOperator.Simulation.World
import DatabaseOperator.Store.Calls
import DatabaseOperator.Store.Secrets
import DatabaseOperator.Text.Base64
import DatabaseOperator.Text.Blank
import DatabaseOperator.Text.Hidden
import DatabaseOperator.Text.Natural
import DatabaseOperator.Text.Percent
import DatabaseOperator.Text.Quoted
import DatabaseOperator.Validation
import DatabaseOperator.Proofs.Pass.Course
import DatabaseOperator.Proofs.Dictionary
import DatabaseOperator.Proofs.Resource.Condition
import DatabaseOperator.Proofs.Resource.Lifecycle
import DatabaseOperator.Proofs.Resource.Change
import DatabaseOperator.Proofs.Chronicle
import DatabaseOperator.Proofs.History
import DatabaseOperator.Proofs.Provider.Manager
import DatabaseOperator.Proofs.Pass.Minds
import DatabaseOperator.Proofs.Creation
import DatabaseOperator.Proofs.Release
import DatabaseOperator.Proofs.Launch
import DatabaseOperator.Proofs.Invariants
import DatabaseOperator.Proofs.Provider.Client
import DatabaseOperator.Proofs.Remote
import DatabaseOperator.Proofs.World
import DatabaseOperator.Proofs.Guards
import DatabaseOperator.Proofs.Convergence
import DatabaseOperator.Proofs.Settling
import DatabaseOperator.Proofs.Suspension
import DatabaseOperator.Proofs.Provider.Interleaving
import DatabaseOperator.Proofs.Resource.Declaration
import DatabaseOperator.Proofs.Provider.Rules
import DatabaseOperator.Proofs.Warrants
import DatabaseOperator.Proofs.Resource.Ownership
import DatabaseOperator.Proofs.Pass.Ends
import DatabaseOperator.Proofs.Chronicle.Timeline
import DatabaseOperator.Proofs.Interference
import DatabaseOperator.Proofs.Pass.Secrets
import DatabaseOperator.Proofs.Aftermath
import DatabaseOperator.Proofs.Provider.Agreement
import DatabaseOperator.Proofs.Completion
import DatabaseOperator.Proofs.Idempotence
import DatabaseOperator.Proofs.Rehearsal
import DatabaseOperator.Proofs.Secrecy
import DatabaseOperator.Proofs.Retry
import DatabaseOperator.Proofs.Handover
import DatabaseOperator.Proofs.Exposure
import DatabaseOperator.Proofs.Provider.Switchboard
import DatabaseOperator.Proofs.Haste
import DatabaseOperator.Proofs.Pass.Bounds
import DatabaseOperator.Proofs.Isolation
import DatabaseOperator.Proofs.Provider.Credentials
import DatabaseOperator.Proofs.Provider.LastWord
import DatabaseOperator.Proofs.Provider.Listing
import DatabaseOperator.Proofs.Firewall.Difference
import DatabaseOperator.Proofs.Provider.Attempts
import DatabaseOperator.Proofs.Provider.Envelope
import DatabaseOperator.Proofs.Cluster.Secret
import DatabaseOperator.Proofs.Cluster.Shelf
import DatabaseOperator.Proofs.Cluster.Writers
import DatabaseOperator.Proofs.Cluster.Keeping
import DatabaseOperator.Proofs.Provider.Usable
import DatabaseOperator.Proofs.Provider.Stages
import DatabaseOperator.Proofs.Resource.Reports
import DatabaseOperator.Proofs.Wrapping
import DatabaseOperator.Proofs.Text.Utf8
import DatabaseOperator.Proofs.Firewall.Comparison
import DatabaseOperator.Proofs.Text.Natural
import DatabaseOperator.Proofs.Operator.Config
import DatabaseOperator.Proofs.Json.Number
import DatabaseOperator.Proofs.Json.Fields
import DatabaseOperator.Proofs.Resource.Roundtrip
import DatabaseOperator.Proofs.Text.Percent
import DatabaseOperator.Proofs.Http.Segments
import DatabaseOperator.Proofs.Http.Names
import DatabaseOperator.Proofs.Http.Root
import DatabaseOperator.Proofs.Http.Below
import DatabaseOperator.Proofs.Provider.Addressing
