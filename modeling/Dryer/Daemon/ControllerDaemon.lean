import Dryer.ControlClient.ClockSession

/-!
# The controller daemon

Controller state on the host: sessions by controller, their clocks, and a guard that faults
the daemon when a heartbeat is overdue.
-/
namespace Dryer.Daemon
open Library Clock ControlProtocol ControlClient

inductive DaemonState where
  | uninitialized
  | connecting
  | connected
  | running
  | faulted
  | disconnected
  deriving DecidableEq

/-- Status snapshot of a registered controller. -/
structure ControllerSessionStatus where
  controllerId : String
  heartbeatTimeoutUs : UInt64
  lastSeenHostUs : UInt64
  queueCapacity : UInt16
  queueFill : UInt16
  earliestAcceptedTick : Tick
  latestAcceptedTick : Tick
  underrun : Bool
  heartbeatOk : Bool
  deriving DecidableEq

structure ControllerSession where
  controllerId : String
  heartbeatTimeoutUs : UInt64
  lastSeenHostUs : UInt64
  lastStatus : Option QueueStatus
  deriving DecidableEq

namespace ControllerSession

def new (controllerId : String) (heartbeatTimeoutUs : UInt64) : ControllerSession :=
  { controllerId, heartbeatTimeoutUs, lastSeenHostUs := 0, lastStatus := none }

def recordHeartbeat (session : ControllerSession) (currentHostUs : UInt64) : ControllerSession :=
  { session with lastSeenHostUs := currentHostUs }

def isHeartbeatAlive (session : ControllerSession) (currentHostUs : UInt64) : Bool :=
  -- zero stands for a controller that was never seen
  if session.lastSeenHostUs = 0 then true
  else U64.saturatingSub currentHostUs session.lastSeenHostUs ≤ session.heartbeatTimeoutUs

def status (session : ControllerSession) (currentHostUs : UInt64) : ControllerSessionStatus :=
  let status := session.lastStatus.getD
    { capacity := 0, fill := 0, earliestAccepted := 0, latestAccepted := 0, underrun := false }
  { controllerId := session.controllerId
    heartbeatTimeoutUs := session.heartbeatTimeoutUs
    lastSeenHostUs := session.lastSeenHostUs
    queueCapacity := status.capacity
    queueFill := status.fill
    earliestAcceptedTick := status.earliestAccepted
    latestAcceptedTick := status.latestAccepted
    underrun := status.underrun
    heartbeatOk := session.isHeartbeatAlive currentHostUs }

end ControllerSession

structure ControllerDaemon where
  state : DaemonState
  clusterSync : MultiControllerClockSync
  sessions : Std.TreeMap String ControllerSession

namespace ControllerDaemon

def new : ControllerDaemon where
  state := .uninitialized
  clusterSync := MultiControllerClockSync.new ⟨0, by decide, by decide⟩ 100000
  sessions := ∅

def registerController (daemon : ControllerDaemon) (controllerId : String)
    (heartbeatTimeoutUs : UInt64) : ControllerDaemon :=
  { state := if daemon.state = .uninitialized then .connected else daemon.state
    clusterSync := (daemon.clusterSync.addController controllerId).2
    sessions := daemon.sessions.insert controllerId
      (ControllerSession.new controllerId heartbeatTimeoutUs) }

def recordHeartbeat (daemon : ControllerDaemon) (controllerId : String)
    (currentHostUs : UInt64) : Bool × ControllerDaemon :=
  match daemon.sessions.get? controllerId with
  | none => (false, daemon)
  | some session => (true, { daemon with
      sessions := daemon.sessions.insert controllerId (session.recordHeartbeat currentHostUs) })

/-- Record a queue status and, with it, a heartbeat. An unknown controller is not recorded. -/
def updateQueueStatus (daemon : ControllerDaemon) (controllerId : String)
    (statusFrame : List UInt8) (currentHostUs : UInt64) :
    Except DecodeError QueueStatus × ControllerDaemon :=
  match decodeQueueStatusFrame statusFrame with
  | .error e => (.error e, daemon)
  | .ok frame =>
    match daemon.sessions.get? controllerId with
    | none => (.ok frame.status, daemon)
    | some session => (.ok frame.status, { daemon with
        sessions := daemon.sessions.insert controllerId
          ({ session with lastStatus := some frame.status }.recordHeartbeat currentHostUs) })

/-- The controllers whose heartbeat is overdue. The daemon is faulted when there is one. -/
def auditHeartbeats (daemon : ControllerDaemon) (currentHostUs : UInt64) :
    List String × ControllerDaemon :=
  let dead := (daemon.sessions.toList.filter fun entry =>
    !entry.2.isHeartbeatAlive currentHostUs).map Prod.fst
  (dead, if dead.isEmpty then daemon else { daemon with state := .faulted })

def activeControllerIds (daemon : ControllerDaemon) : List String := daemon.sessions.keys

def sessionStatus (daemon : ControllerDaemon) (controllerId : String) (currentHostUs : UInt64) :
    Option ControllerSessionStatus :=
  (daemon.sessions.get? controllerId).map (·.status currentHostUs)

def daemonStatusSummary (daemon : ControllerDaemon) (currentHostUs : UInt64) :
    List ControllerSessionStatus :=
  daemon.sessions.values.map (·.status currentHostUs)

/-- An update returns the status that its frame carries, for any controller. -/
theorem updateQueueStatus_result (daemon : ControllerDaemon) (controllerId : String)
    (statusFrame : List UInt8) (currentHostUs : UInt64) :
    (daemon.updateQueueStatus controllerId statusFrame currentHostUs).1 =
      (decodeQueueStatusFrame statusFrame).map QueueStatusFrame.status := by
  unfold updateQueueStatus
  split
  case h_1 e hdecode =>
    rw [hdecode]
    rfl
  case h_2 frame hdecode =>
    rw [hdecode]
    split <;> rfl

end ControllerDaemon
end Dryer.Daemon
