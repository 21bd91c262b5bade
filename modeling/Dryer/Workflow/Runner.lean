import Dryer.Daemon.ControllerDaemon
import Dryer.Toolpath.Auditor

/-!
# The workflow runner

Commands wait in a job queue until the controller has room for them, and are dispatched with
timestamps that the last status of the controller allows.
-/
namespace Dryer.Workflow
open Library ControlProtocol ControlClient Daemon Toolpath

structure RunnerConfig where
  targetHorizon : UInt16
  minThreshold : UInt16
  maxBatchSize : ℕ
  scheduleLeadMarginUs : UInt64
  deriving DecidableEq

def RunnerConfig.default : RunnerConfig where
  targetHorizon := 16
  minThreshold := 4
  maxBatchSize := 8
  scheduleLeadMarginUs := 1000

inductive RunnerState where
  | idle
  | running
  | throttled
  | underrunWarning
  | faulted
  | completed
  deriving DecidableEq

inductive RunnerError where
  | auditFailed (report : AuditReport)
  | controllerFaulted (message : String)
  | heartbeatTimeout
  deriving DecidableEq

structure WorkflowRunner where
  config : RunnerConfig
  auditor : Option ToolpathAuditor
  jobQueue : List CommandEnvelope
  lastControllerStatus : Option ControllerSessionStatus
  totalEnqueued : ℕ
  totalDispatched : ℕ
  totalCompleted : ℕ
  underrunEvents : UInt64
  lastDispatchedTick : Option Tick
  state : RunnerState

namespace WorkflowRunner

def new (config : RunnerConfig) : WorkflowRunner where
  config
  auditor := none
  jobQueue := []
  lastControllerStatus := none
  totalEnqueued := 0
  totalDispatched := 0
  totalCompleted := 0
  underrunEvents := 0
  lastDispatchedTick := none
  state := .idle

def setAuditor (runner : WorkflowRunner) (limits : AuditLimits) : WorkflowRunner :=
  { runner with auditor := some (.new limits) }

def clearAuditor (runner : WorkflowRunner) : WorkflowRunner := { runner with auditor := none }

def withAuditor (config : RunnerConfig) (limits : AuditLimits) : WorkflowRunner :=
  (new config).setAuditor limits

/-! ## Enqueuing -/

/-- The report of a failed audit. Without an auditor no audit fails. -/
def auditFailure (runner : WorkflowRunner) (commands : List Command) : Option AuditReport :=
  runner.auditor.bind fun auditor =>
    let report := auditor.audit commands
    if report.passed then none else some report

/-- The state when commands have been enqueued. -/
def resumed (runner : WorkflowRunner) : RunnerState :=
  if runner.state = .idle ∨ runner.state = .completed then .running else runner.state

def enqueue (runner : WorkflowRunner) (envelope : CommandEnvelope) :
    Except RunnerError Unit × WorkflowRunner :=
  match runner.auditFailure [envelope.command] with
  | some report => (.error (.auditFailed report), runner)
  | none =>
    (.ok (), { runner with
      jobQueue := runner.jobQueue ++ [envelope]
      totalEnqueued := runner.totalEnqueued + 1
      state := runner.resumed })

/-- All commands of the batch are enqueued or none. -/
def enqueueBatch (runner : WorkflowRunner) (items : List CommandEnvelope) :
    Except RunnerError ℕ × WorkflowRunner :=
  if items.isEmpty then (.ok 0, runner)
  else
    match runner.auditFailure (items.map (·.command)) with
    | some report => (.error (.auditFailed report), runner)
    | none =>
      (.ok items.length, { runner with
        jobQueue := runner.jobQueue ++ items
        totalEnqueued := runner.totalEnqueued + items.length
        state := runner.resumed })

/-! ## Status updates -/

/-- The state after the heartbeat and underrun checks of a status. -/
def checkedState (runner : WorkflowRunner) (status : ControllerSessionStatus) : RunnerState :=
  if ¬ status.heartbeatOk then .faulted
  else if status.underrun ∧ runner.state ≠ .faulted then .underrunWarning
  else runner.state

def updateControllerStatus (runner : WorkflowRunner) (status : ControllerSessionStatus) :
    WorkflowRunner :=
  let state := runner.checkedState status
  let activeInController := status.queueFill.toNat
  { runner with
    underrunEvents :=
      if status.heartbeatOk ∧ status.underrun then runner.underrunEvents + 1
      else runner.underrunEvents
    totalCompleted := runner.totalDispatched - activeInController
    state :=
      if runner.jobQueue.isEmpty ∧ activeInController = 0 ∧
          runner.totalDispatched = runner.totalEnqueued ∧ runner.totalEnqueued > 0 ∧
          state ≠ .faulted ∧ state ≠ .underrunWarning then .completed
      else if state = .throttled ∧ status.queueFill < runner.config.targetHorizon then .running
      else state
    lastControllerStatus := some status }

/-! ## Dispatching -/

/-- What the dispatch uses of the last status. -/
structure DispatchLimits where
  capacity : UInt16
  fill : UInt16
  earliestAccepted : Tick
  latestAccepted : Tick
  deriving DecidableEq

/-- Without a status the limits come from the configuration. -/
def dispatchLimits (runner : WorkflowRunner) : DispatchLimits :=
  match runner.lastControllerStatus with
  | some status =>
    { capacity := status.queueCapacity
      fill := status.queueFill
      earliestAccepted := status.earliestAcceptedTick
      latestAccepted := status.latestAcceptedTick }
  | none =>
    { capacity := runner.config.targetHorizon, fill := 0, earliestAccepted := 0,
      latestAccepted := 0 }

/-- No earlier than a margin after the last dispatched tick. -/
def afterLast (marginUs : UInt64) (last : Option Tick) (t : Tick) : Tick :=
  last.elim t fun last => max t (U64.saturatingAdd last marginUs)

/-- A latest accepted tick of 0 is unknown. Only a specified tick is held before the latest. -/
def targetTick (marginUs : UInt64) (limits : DispatchLimits) (last : Option Tick) :
    Option Tick → Tick
  | some specified =>
    let t := afterLast marginUs last (max specified limits.earliestAccepted)
    if limits.latestAccepted > 0 ∧ t > limits.latestAccepted then limits.latestAccepted else t
  | none => afterLast marginUs last limits.earliestAccepted

/-- Give dispatched commands their ticks, and return the last tick. -/
def schedule (marginUs : UInt64) (limits : DispatchLimits) (last : Option Tick) :
    List CommandEnvelope → List CommandEnvelope × Option Tick
  | [] => ([], last)
  | envelope :: rest =>
    let tick := targetTick marginUs limits last envelope.executeAt
    let (batch, last) := schedule marginUs limits (some tick) rest
    ({ envelope with executeAt := some tick } :: batch, last)

/-- The batch of the commands in front of a non-empty queue. -/
def dispatch (runner : WorkflowRunner) : List CommandEnvelope × WorkflowRunner :=
  let limits := runner.dispatchLimits
  let targetHorizon := min runner.config.targetHorizon limits.capacity
  if limits.fill ≥ targetHorizon then ([], { runner with state := .throttled })
  else
    let headroom := (targetHorizon - limits.fill).toNat
    let batchCount := min (min headroom runner.config.maxBatchSize) runner.jobQueue.length
    if batchCount = 0 then ([], runner)
    else
      let (batch, last) := schedule runner.config.scheduleLeadMarginUs limits
        runner.lastDispatchedTick (runner.jobQueue.take batchCount)
      (batch, { runner with
        jobQueue := runner.jobQueue.drop batchCount
        lastDispatchedTick := last
        totalDispatched := runner.totalDispatched + batch.length
        state :=
          if (runner.state = .throttled ∧ limits.fill < targetHorizon) ∨
              (runner.state ≠ .underrunWarning ∧ runner.state ≠ .faulted) then .running
          else runner.state })

def nextDispatchBatch (runner : WorkflowRunner) : List CommandEnvelope × WorkflowRunner :=
  if runner.state = .faulted then ([], runner)
  else if runner.jobQueue.isEmpty then
    ([], { runner with
      state :=
        if runner.totalCompleted = runner.totalDispatched ∧ runner.totalDispatched > 0 then
          .completed
        else if runner.state ≠ .faulted ∧ runner.state ≠ .underrunWarning then .idle
        else runner.state })
  else if runner.lastControllerStatus.any fun status => !status.heartbeatOk then
    ([], { runner with state := .faulted })
  else runner.dispatch

end WorkflowRunner
end Dryer.Workflow
