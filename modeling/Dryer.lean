import Dryer.Library.LittleEndian
import Dryer.Library.Agenda
import Dryer.ControlProtocol.Frames
import Dryer.ControlProtocol.Wire
import Dryer.ControlProtocol.Decode
import Dryer.ControlProtocol.Encode
import Dryer.ControlProtocol.Layout
import Dryer.ControlProtocol.Payloads
import Dryer.ControlProtocol.RoundTrip
import Dryer.Library.Delimiter
import Dryer.TransportAdapter.FrameCodec
import Dryer.TransportAdapter.Framing
import Dryer.TransportAdapter.Resync
import Dryer.Clock.Estimator
import Dryer.Simulator.ControllerClock
import Dryer.Clock.Arithmetic
import Dryer.Clock.Soundness
import Dryer.ControlClient.ClockSession
import Dryer.ControlClient.SessionSafety
import Dryer.ControlClient.ClockExchange
import Dryer.Daemon.ControllerDaemon
import Dryer.TransportAdapter.StreamReader
import Dryer.TransportAdapter.Dispatch
import Dryer.TransportAdapter.ReaderRuns
import Dryer.Simulator.SimTransport
import Dryer.Simulator.Controller
import Dryer.Simulator.WireFrames
import Dryer.Simulator.Rig
import Dryer.Simulator.CommandQueue
import Dryer.Simulator.SafetyEnvelope
import Dryer.Simulator.MotionConservation
import Dryer.Toolpath.Auditor
import Dryer.Toolpath.SimulatedJob
import Dryer.Workflow.Runner
import Dryer.Workflow.Conservation
import Dryer.ControlClient.CommandClient
import Dryer.Workflow.Dispatch
import Dryer.Workflow.Pacing
import Dryer.Workflow.ControllerAgreement
import Dryer.Daemon.Registration
import Dryer.Simulator.ClockTransport
import Dryer.Clock.Acceptance
import Dryer.Simulator.ClockLoop
import Dryer.Workflow.Horizon
import Dryer.Workflow.Timestamps
import Dryer.Workflow.Audits
import Dryer.Workflow.Faults
import Dryer.Workflow.Completion
import Dryer.Library.OrderedMaps
import Dryer.Library.KeyedResults
import Dryer.MachineParser.Spans
import Dryer.MachineResolver.Packages
import Dryer.Library.Closure
import Dryer.MachineResolver.Rounds
import Dryer.MachineResolver.Resolution
import Dryer.MachineResolver.Soundness
import Dryer.MachineResolver.Minimality
import Dryer.MachineResolver.SingleVersions
import Dryer.ControlProtocol.Bursts
import Dryer.ControlProtocol.Boundaries
import Dryer.TransportAdapter.Agreement
import Dryer.Clock.Sessions
import Dryer.Clock.Windows
import Dryer.Clock.SlewMonotone
import Dryer.Library.Passes
import Dryer.Library.Text
import Dryer.MachineSchema.Quantities
import Dryer.MachineSchema.MachineGraph
import Dryer.PackageModel.Boards
import Dryer.PackageModel.Chips
import Dryer.PackageModel.Devices
import Dryer.PackageModel.PackageFiles
import Dryer.MachineParser.Validate
import Dryer.MachineResolver.Selection
import Dryer.MachineResolver.Capability
import Dryer.MachineResolver.Requirements
import Dryer.MachineResolver.Targets
import Dryer.MachineResolver.Expansion
import Dryer.MachineResolver.Allocation
import Dryer.MachineResolver.Placements
import Dryer.MachineResolver.Electrical
import Dryer.MachineResolver.Safety
import Dryer.MachineResolver.Artifacts
import Dryer.MachineResolver.ResolveDoc
import Dryer.MachineResolver.Phases
import Dryer.MachineResolver.Requests
import Dryer.MachineResolver.ValidGraphs
import Dryer.MachineResolver.SafetyCoverage
import Dryer.MachineResolver.Templates
import Dryer.MachineResolver.ExpandedDocuments
import Dryer.PackageModel.RegistrySources
import Dryer.MachineLock.Lockfile
import Dryer.MachineResolver.BusInstances
import Dryer.MachineResolver.TimerChoice
import Dryer.Toolpath.GcodeLowerer
import Dryer.ControlClient.CommandRuns
import Dryer.Daemon.HeartbeatAudit
import Dryer.Toolpath.SelectiveHoming
import Dryer.Toolpath.TrackedPositions
import Dryer.Simulator.CheckedMotion
import Dryer.Simulator.MotionProgress
import Dryer.Library.Transactions
import Dryer.Simulator.ClockCandidates
import Dryer.Simulator.ClockCausality
import Dryer.MachineLock.Generate
import Dryer.MachineLock.LockedControllers
import Dryer.MachineLock.ValidLockfiles
import Dryer.MachineResolver.BuildPlans
import Dryer.MachineLock.LockedResources
import Dryer.MachineLock.PinnedPackages
import Dryer.MachineLock.Lockability
import Dryer.Library.PrefixFree
import Dryer.PackageModel.ContentHash
import Dryer.FirmwareFlash.UsbDevices
import Dryer.MachineParser.IndexedDocuments
import Dryer.Cli.VerifyLock
import Dryer.FirmwareBuild.ControllerImage
import Dryer.FirmwareFlash.DryRun
import Dryer.FirmwareFlash.FaithfulPlans
import Dryer.MachineResolver.WaivedRequirements
import Dryer.Library.Components
import Dryer.Simulator.ClockCluster
import Dryer.Simulator.SoundEstimates
import Dryer.Simulator.ClusterSessions
import Dryer.Simulator.Traces
import Dryer.Library.Histories
import Dryer.Simulator.Replay
import Dryer.Simulator.CommandLink
import Dryer.TransportAdapter.Pipes
import Dryer.TransportAdapter.DuplexRuns
import Dryer.MachineLock.FaithfulLocks
import Dryer.FirmwareBuild.LockedBuilds
import Dryer.PackageModel.StepLowering
