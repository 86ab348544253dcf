import ControlRig.NameSet
import ControlRig.Text.Blank
import ControlRig.Text.Quoted
import ControlRig.Duration
import ControlRig.Double.Shortest
import ControlRig.Json.Writer
import ControlRig.Json.Reader
import ControlRig.Param.Value
import ControlRig.Toml.Document
import ControlRig.Decode.Record
import ControlRig.Strictness
import ControlRig.Configuration.Definition
import ControlRig.Settings
import ControlRig.Catalog
import ControlRig.Param.Tree
import ControlRig.Registry.Simulated
import ControlRig.Timing.Poller
import ControlRig.Timing.Ticker
import ControlRig.Timing.Throttle
import ControlRig.Manager.Error
import ControlRig.Procedure.Basic
import ControlRig.Transition.Basic
import ControlRig.Manager.Monitor
import ControlRig.Service.Handle
import ControlRig.Server.Http
import ControlRig.Server.Shutdown
import ControlRig.CommandLine.Arguments
import ControlRig.Client.Invocation
import ControlRig.Client.Exchange
import ControlRig.Client.Report
import ControlRig.Daemon.Invocation
import ControlRig.Daemon.Start
import ControlRig.Rig.Basic
import ControlRig.Param.Document
import ControlRig.Param.Access
import ControlRig.Rehearsal.Step
import ControlRig.Rehearsal.Basic
import ControlRig.TaskPool
import ControlRig.Registry.Traffic
import ControlRig.Rig.Crew
import ControlRig.Transition.Polling
import ControlRig.Server.Serving
import ControlRig.Http.Message
import ControlRig.Main
import ControlRig.Proofs.Registry.Reachable
import ControlRig.Proofs.Transition.CallOrder
import ControlRig.Proofs.Transition.Arrival
import ControlRig.Proofs.Transition.Rollback
import ControlRig.Proofs.Manager.Failure
import ControlRig.Proofs.Transition.Recovery
import ControlRig.Proofs.Manager.Status
import ControlRig.Proofs.Manager.Stop
import ControlRig.Proofs.Manager.Truth
import ControlRig.Proofs.Manager.Listing
import ControlRig.Proofs.Manager.Activation
import ControlRig.Proofs.Manager.Serialization
import ControlRig.Proofs.Server.Shutdown
import ControlRig.Proofs.TaskPool
import ControlRig.Proofs.Client.Exchange
import ControlRig.Proofs.Transition.Strictness
import ControlRig.Proofs.Manager.Source
import ControlRig.Proofs.Client.ExitCode
import ControlRig.Proofs.Transition.Verdict
import ControlRig.Proofs.Manager.Departure
import ControlRig.Proofs.Manager.Health
import ControlRig.Proofs.Manager.Idempotence
import ControlRig.Proofs.Manager.Patrol
import ControlRig.Proofs.Registry.Alignment
import ControlRig.Proofs.Transition.Missing
import ControlRig.Proofs.Configuration.Rejection
import ControlRig.Proofs.Configuration.Reading
import ControlRig.Proofs.Param.InPlace
import ControlRig.Proofs.Registry.Traffic
import ControlRig.Proofs.Manager.Identity
import ControlRig.Proofs.Timing.Poller
import ControlRig.Proofs.Timing.Ticker
import ControlRig.Proofs.Timing.Throttle
import ControlRig.Proofs.TaskPool.Crew
import ControlRig.Proofs.Server.Route
import ControlRig.Proofs.Param.Spelling
import ControlRig.Proofs.Settings.Acceptance
