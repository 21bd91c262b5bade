import Dryer.Library.Agenda
import Dryer.Library.Machine
import Dryer.Simulator.WireFrames

/-!
# The controller on its link

A controller beside a command link, under any interleaving of wire frames, sends, link faults,
window changes, resets and simulation steps. The marks of a run record which commands were
queued, which a step took from the queue, and where a reset emptied it.
-/
namespace Dryer.Simulator
open Library ControlProtocol

structure Rig (θ : Type) where
  controller : SimController θ
  transport : SimTransport

/-- A new controller on a new link. -/
def Rig.new {θ : Type} [F64 θ] (ambientMilliC : Int64) (heaters : List HeaterCfg)
    (axes : List AxisCfg) (cfg : TransportConfig) : Rig θ where
  controller := .new ambientMilliC heaters axes
  transport := .new cfg

inductive RigEvent where
  | frame (bytes : List UInt8)
  | send (now : Tick) (command : Command)
  | sendScheduled (now executeAt : Tick) (command : Command)
  | dropLink
  | restoreLink
  | setQueueWindow (window : QueueWindow)
  | reset
  | step

/-- The command that a wire frame carries. -/
def wireCommand (frame : List UInt8) : Option CommandEnvelope :=
  match decodeCommand frame with
  | .ok command => some command.envelope
  | .error _ => none

abbrev QueueMark := Mark QueuedCommand

namespace SimController

variable {θ : Type}

/-- The mark of an accepted command. -/
def admitted (c : SimController θ) (incoming : CommandEnvelope) : List QueueMark :=
  match c.admission incoming with
  | .ok (some queued) => [.added queued]
  | _ => []

def admittedAll (c : SimController θ) : List CommandEnvelope → List QueueMark
  | [] => []
  | incoming :: arrived => c.admitted incoming ++ (c.accept incoming).admittedAll arrived

/-- The commands that `startDue` takes from the queue. -/
def due (c : SimController θ) : List QueuedCommand := c.queue.takeWhile (·.executeAt ≤ c.now)

end SimController

/-- The commands that the next step accepts. -/
def Rig.arrived {θ : Type} (rig : Rig θ) : List CommandEnvelope :=
  (rig.transport.deliverDue (rig.controller.now + stepTicks)).1

/-- The controller when it has accepted them. -/
def Rig.received {θ : Type} (rig : Rig θ) : SimController θ := rig.controller.receive rig.arrived

/-- One event at the rig. -/
def rigMachine (θ : Type) [F64 θ] : Machine (Rig θ) RigEvent QueueMark where
  step rig
    | .frame bytes =>
      ({ rig with controller := (rig.controller.processWireFrame bytes).2 },
        (wireCommand bytes).elim [] rig.controller.admitted)
    | .send now command => ({ rig with transport := rig.transport.send now command }, [])
    | .sendScheduled now executeAt command =>
      ({ rig with transport := rig.transport.sendScheduled now executeAt command }, [])
    | .dropLink => ({ rig with transport := rig.transport.dropLink }, [])
    | .restoreLink => ({ rig with transport := rig.transport.restoreLink }, [])
    | .setQueueWindow window =>
      ({ rig with controller := rig.controller.setQueueWindow window }, [])
    | .reset => ({ rig with controller := rig.controller.reset }, [.cleared])
    | .step =>
      let (controller, transport) := rig.controller.step rig.transport
      ({ controller, transport },
        { rig.controller with now := rig.controller.now + stepTicks }.admittedAll rig.arrived ++
          [.served rig.received.now.toNat rig.received.due])

/-! ## Accepting -/

namespace SimController

variable {θ : Type}

theorem checkTimestamp_eq_ok {c : SimController θ} {scheduledFor : Tick} {u : Unit} :
    c.checkTimestamp scheduledFor = .ok u ↔
      scheduledFor % stepTicks = 0 ∧ c.queueStatus.earliestAcceptedTimestamp ≤ scheduledFor ∧
        scheduledFor ≤ c.queueStatus.latestAcceptedTimestamp := by
  simp only [checkTimestamp, bind_eq_ok, reject_eq_ok, not_ne_iff, UInt64.not_lt]
  simp

theorem admission_eq_some {c : SimController θ} {incoming : CommandEnvelope}
    {queued : QueuedCommand} :
    c.admission incoming = .ok (some queued) ↔
      c.latchedFault = none ∧ incoming.command ≠ .heartbeat ∧
        (∀ executeAt, incoming.executeAt = some executeAt →
          c.checkTimestamp executeAt = .ok ()) ∧
        c.queue.length < c.queueCapacity ∧
        queued = ⟨incoming.executeAt.getD c.now, incoming.command⟩ := by
  obtain ⟨executeAt, command⟩ := incoming
  unfold admission
  cases hfault : c.latchedFault with
  | some code => simp
  | none =>
    by_cases hheartbeat : command = .heartbeat
    · cases executeAt <;> simp [hheartbeat]
    · simp only [if_neg hheartbeat, bind_eq_ok, reject_eq_ok, pure, Except.pure]
      cases executeAt with
      | none => simp [hheartbeat, eq_comm]
      | some executeAt => simp [hheartbeat, eq_comm, Unique.exists_iff]

/-- What `accept` does with a command, with its mark. -/
inductive Accepts (c : SimController θ) (incoming : CommandEnvelope) :
    SimController θ → List QueueMark → Prop
  | reject (what reason : String) : c.admission incoming = .error reason →
      Accepts c incoming (c.record [.rejected c.now what reason]) []
  | heartbeat : c.admission incoming = .ok none →
      Accepts c incoming { c with lastHeartbeat := c.now } []
  | queue (what : String) (queued : QueuedCommand) : c.admission incoming = .ok (some queued) →
      Accepts c incoming ((c.record [.accepted c.now what]).enqueue queued) [.added queued]

theorem accepts_accept (c : SimController θ) (incoming : CommandEnvelope) :
    c.Accepts incoming (c.accept incoming) (c.admitted incoming) := by
  unfold accept admitted
  rcases hadmission : c.admission incoming with reason | _ | queued
  · exact .reject _ reason hadmission
  · exact .heartbeat hadmission
  · exact .queue _ queued hadmission

/-- What one command keeps, a list of commands keeps. -/
theorem foldl_accept {P : SimController θ → List QueueMark → Prop}
    (haccept : ∀ c marks incoming, P c marks → P (c.accept incoming) (marks ++ c.admitted incoming))
    {c : SimController θ} {marks : List QueueMark} (h : P c marks)
    (arrived : List CommandEnvelope) :
    P (arrived.foldl accept c) (marks ++ c.admittedAll arrived) := by
  induction arrived generalizing c marks with
  | nil => simpa [admittedAll] using h
  | cons incoming arrived ih =>
    have hnext := ih (haccept c marks incoming h)
    simpa [admittedAll] using hnext

theorem accept_now (c : SimController θ) (incoming : CommandEnvelope) :
    (c.accept incoming).now = c.now := by
  have h := c.accepts_accept incoming
  generalize c.accept incoming = d, c.admitted incoming = m at h ⊢
  cases h <;> rfl

theorem accept_latchedFault (c : SimController θ) (incoming : CommandEnvelope) :
    (c.accept incoming).latchedFault = c.latchedFault := by
  have h := c.accepts_accept incoming
  generalize c.accept incoming = d, c.admitted incoming = m at h ⊢
  cases h <;> rfl

theorem accept_axes (c : SimController θ) (incoming : CommandEnvelope) :
    (c.accept incoming).axes = c.axes := by
  have h := c.accepts_accept incoming
  generalize c.accept incoming = d, c.admitted incoming = m at h ⊢
  cases h <;> rfl

/-- What no command changes, the arrivals of a step do not change. -/
theorem receive_eq {β : Type} {g : SimController θ → β}
    (h : ∀ c incoming, g (accept c incoming) = g c) (c : SimController θ)
    (arrived : List CommandEnvelope) :
    g (c.receive arrived) = g { c with now := c.now + stepTicks } :=
  @foldl_accept θ (fun d _ => g d = g { c with now := c.now + stepTicks })
    (fun d _ incoming hd => (h d incoming).trans hd) _ [] rfl arrived

theorem receive_now (c : SimController θ) (arrived : List CommandEnvelope) :
    (c.receive arrived).now = c.now + stepTicks :=
  receive_eq accept_now c arrived

theorem receive_latchedFault (c : SimController θ) (arrived : List CommandEnvelope) :
    (c.receive arrived).latchedFault = c.latchedFault :=
  receive_eq accept_latchedFault c arrived

theorem receive_axes (c : SimController θ) (arrived : List CommandEnvelope) :
    (c.receive arrived).axes = c.axes :=
  receive_eq accept_axes c arrived

theorem processWireFrame_bytes (c : SimController θ) {frame : CommandFrame}
    (h : frame.StringsFit) :
    c.processWireFrame frame.bytes = (.ok none, c.accept frame.envelope) := by
  have hdecode := (commandFrame_codes.decode_iff frame.bytes frame).mpr ⟨h, rfl⟩
  have hlen : ¬ frame.bytes.length < 4 := by
    simp [CommandFrame.bytes, headerLen]
    omega
  have htype : byteAt frame.bytes 3 = commandMessageType := rfl
  simp [processWireFrame, hlen, htype, hdecode]

theorem processWireFrame_snd (c : SimController θ) (frame : List UInt8) :
    (c.processWireFrame frame).2 = (wireCommand frame).elim c c.accept := by
  unfold wireCommand
  cases hdecode : decodeCommand frame with
  | ok command =>
    obtain ⟨hfits, rfl⟩ := (commandFrame_codes.decode_iff frame command).mp hdecode
    rw [c.processWireFrame_bytes hfits]
    rfl
  | error e =>
    simp only [processWireFrame, hdecode]
    split_ifs
    · rfl
    · rfl
    · cases decodeQueueStatus frame <;> rfl
    · cases decodeClockRequest frame <;> rfl
    · rfl

/-! ## Executing -/

/-- What a command does to the heaters. -/
def startHeaters (heaters : List (HeaterState θ)) : Command → List (HeaterState θ)
  | .setHeaterTarget heater targetMilliC =>
    modifyFirst (·.cfg.name == heater) (HeaterState.retarget · targetMilliC) heaters
  | _ => heaters

def startAxes (axes : List AxisState) : Command → List AxisState
  | .home axis rateUmS =>
    modifyFirst (·.cfg.name == axis) (AxisState.begin · (homeMotion axis rateUmS)) axes
  | .move axis distanceUm rateUmS =>
    modifyFirst (·.cfg.name == axis) (AxisState.begin · (moveMotion axis distanceUm rateUmS)) axes
  | _ => axes

theorem start_eq (c : SimController θ) (command : Command) :
    ∃ events, c.start command = { c with
      heaters := startHeaters c.heaters command
      axes := startAxes c.axes command
      trace := c.trace ++ events } := by
  cases command with
  | heartbeat => exact ⟨[], by simp [start, startHeaters, startAxes]⟩
  | setHeaterTarget heater targetMilliC =>
    simp only [start, startHeaters, startAxes]
    split
    case h_1 hfind => exact ⟨[], by simp [modifyFirst_of_find?_eq_none hfind]⟩
    case h_2 => exact ⟨_, rfl⟩
  | home axis rateUmS => exact ⟨[], by simp [start, beginMotion, startHeaters, startAxes]⟩
  | move axis distanceUm rateUmS =>
    exact ⟨[], by simp [start, beginMotion, startHeaters, startAxes]⟩

theorem startFront_eq (c : SimController θ) (queue : List QueuedCommand) :
    ∃ events, c.startFront queue = { c with
      queue := queue.dropWhile (·.executeAt ≤ c.now)
      heaters := ((queue.takeWhile (·.executeAt ≤ c.now)).map (·.command)).foldl
        startHeaters c.heaters
      axes := ((queue.takeWhile (·.executeAt ≤ c.now)).map (·.command)).foldl startAxes c.axes
      trace := c.trace ++ events } ∧
      (queue.takeWhile (·.executeAt ≤ c.now) = [] → events = []) := by
  induction queue generalizing c with
  | nil => exact ⟨[], by simp [startFront], fun _ => rfl⟩
  | cons queued queue ih =>
    by_cases hdue : queued.executeAt ≤ c.now
    · obtain ⟨events, hstart⟩ := c.start_eq queued.command
      obtain ⟨later, hlater, -⟩ := ih (c.start queued.command)
      refine ⟨events ++ later, ?_, by simp [hdue]⟩
      rw [startFront, if_pos hdue, hlater, hstart]
      simp [hdue]
    · exact ⟨[], by simp [startFront, hdue], fun _ => rfl⟩

/-- The events of one step, when the commands that are due have been started. -/
def stepEvents [F64 θ] (c : SimController θ) : List Event :=
  c.heaters.flatMap (fun h => (h.enforce c.now c.lastHeartbeat).2) ++
    c.axes.flatMap (fun a => (a.advance c.now).2) ++
    if c.nextTempSample ≤ c.now then
      c.enforceSafety.driveHeaters.heaters.map fun h =>
        .tempSample c.now h.cfg.name (F64.toI64 (F64.round h.milliC))
    else []

theorem execute_eq [F64 θ] (c : SimController θ) :
    ∃ events next, c.execute = { c with
      queue := c.queue.dropWhile (·.executeAt ≤ c.now)
      heaters := ((c.due.map (·.command)).foldl startHeaters c.heaters).map fun h =>
        (h.enforce c.now c.lastHeartbeat).1.drive c.ambientMilliC
      axes := ((c.due.map (·.command)).foldl startAxes c.axes).map fun a => (a.advance c.now).1
      nextTempSample := next
      trace := c.trace ++ (events ++ c.startDue.stepEvents) } ∧ (c.due = [] → events = []) := by
  obtain ⟨events, hstart, hnone⟩ := c.startFront_eq c.queue
  refine ⟨events, if c.nextTempSample ≤ c.now then c.nextTempSample + c.tempSampleEvery
    else c.nextTempSample, ?_, hnone⟩
  unfold execute stepEvents startDue
  rw [hstart]
  by_cases hsample : c.nextTempSample ≤ c.now
  · simp [enforceSafety, driveHeaters, advanceAxes, sampleTemperatures, hsample, due,
      Function.comp_def]
  · simp [enforceSafety, driveHeaters, advanceAxes, sampleTemperatures, hsample, due,
      Function.comp_def]

end SimController

/-! ## Runs -/

variable {θ : Type} [F64 θ]

/-- What an event does to the controller, with its marks. -/
inductive RigMoves (c : SimController θ) : RigEvent → SimController θ → List QueueMark → Prop
  | stay (event : RigEvent) : event ≠ .step → event ≠ .reset → RigMoves c event c []
  | accept (bytes : List UInt8) (incoming : CommandEnvelope) :
      wireCommand bytes = some incoming →
      RigMoves c (.frame bytes) (c.accept incoming) (c.admitted incoming)
  | window (window : QueueWindow) : RigMoves c (.setQueueWindow window) (c.setQueueWindow window) []
  | reset : RigMoves c .reset c.reset [.cleared]
  | step (arrived : List CommandEnvelope) :
      RigMoves c .step (c.receive arrived).execute
        ({ c with now := c.now + stepTicks }.admittedAll arrived ++
          [.served (c.receive arrived).now.toNat (c.receive arrived).due])

theorem rigMoves_step (rig : Rig θ) (event : RigEvent) :
    RigMoves rig.controller event ((rigMachine θ).step rig event).1.controller
      ((rigMachine θ).step rig event).2 := by
  cases event with
  | frame bytes =>
    simp only [rigMachine, SimController.processWireFrame_snd]
    cases hcommand : wireCommand bytes with
    | none => exact .stay _ nofun nofun
    | some incoming => exact .accept bytes incoming hcommand
  | setQueueWindow window => exact .window window
  | reset => exact .reset
  | step => exact .step _
  | send | sendScheduled | dropLink | restoreLink => exact .stay _ nofun nofun

theorem step_now (c : SimController θ) (transport : SimTransport) :
    (c.step transport).1.now = c.now + stepTicks := by
  obtain ⟨events, next, hexecute, -⟩ :=
    (c.receive (transport.deliverDue (c.now + stepTicks)).1).execute_eq
  have hnow := congrArg SimController.now hexecute
  exact hnow.trans (c.receive_now _)

/-- A call of `run` is a number of simulation steps. -/
theorem run_eq_steps (rig : Rig θ) («until» : Tick) :
    ∃ n, rig.controller.run rig.transport «until» =
      (((rigMachine θ).run rig (List.replicate n .step)).1.controller,
        ((rigMachine θ).run rig (List.replicate n .step)).1.transport) := by
  unfold SimController.run
  generalize «until».toNat - rig.controller.now.toNat = fuel
  induction fuel generalizing rig with
  | zero => exact ⟨0, rfl⟩
  | succ fuel ih =>
    rw [SimController.runSteps]
    split
    · obtain ⟨n, hn⟩ := ih ((rigMachine θ).step rig .step).1
      exact ⟨n + 1, hn⟩
    · exact ⟨0, rfl⟩

/-- `run` does not stop early, unless the ticks run out. -/
theorem run_reaches (c : SimController θ) (transport : SimTransport) {«until» : Tick}
    (hfits : «until».toNat + stepTicks.toNat ≤ 2 ^ 64) :
    «until» ≤ (c.run transport «until»).1.now := by
  unfold SimController.run
  generalize hfuel : «until».toNat - c.now.toNat = fuel
  replace hfuel := hfuel.le
  have hticks : stepTicks.toNat = 1000 := rfl
  induction fuel generalizing c transport with
  | zero =>
    rw [SimController.runSteps, UInt64.le_iff_toNat_le]
    exact Nat.sub_eq_zero_iff_le.mp (Nat.le_zero.mp hfuel)
  | succ fuel ih =>
    rw [SimController.runSteps]
    split
    · rename_i hlt
      have hbefore : c.now.toNat < «until».toNat := UInt64.lt_iff_toNat_lt.mp hlt
      have hnow : (c.step transport).1.now.toNat = c.now.toNat + 1000 := by
        rw [step_now, UInt64.toNat_add, hticks, Nat.mod_eq_of_lt (by omega)]
      exact ih (c.step transport).1 (c.step transport).2 (by omega)
    · rename_i hstop
      exact UInt64.not_lt.mp hstop

end Dryer.Simulator
