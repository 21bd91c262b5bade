import Dryer.Simulator.CommandQueue
import Dryer.Workflow.Dispatch
import Dryer.Workflow.Pacing

/-!
# The runner and the simulated controller

A runner reads its status from a simulated controller and dispatches to it over the wire. The
controller checks every command again, by rules of its own.
-/
namespace Dryer.Simulator
open Library ControlProtocol

/-- The event shows that a command was rejected. -/
def Event.Rejects : Event → Prop
  | .rejected .. => True
  | _ => False

namespace SimController

variable {θ : Type}

/-- A command with a tick is queued or rejected. -/
theorem admission_ne_none (c : SimController θ) {incoming : CommandEnvelope}
    (hat : incoming.executeAt.isSome) : c.admission incoming ≠ .ok none := by
  unfold admission
  cases c.latchedFault with
  | some code => exact nofun
  | none =>
    by_cases hheartbeat : incoming.command = .heartbeat
    · simp [hheartbeat, hat]
    · simp [hheartbeat, bind_eq_ok, pure, Except.pure]

/-- Commands with ticks are all accepted exactly when each is by itself and there is room for all
of them. -/
theorem foldl_accept_rejects_iff {c : SimController θ} (hfault : c.latchedFault = none)
    {items : List CommandEnvelope} (hat : ∀ envelope ∈ items, envelope.executeAt.isSome) :
    ∃ later, (items.foldl accept c).trace = c.trace ++ later ∧
      ((∀ event ∈ later, ¬ event.Rejects) ↔
        (∀ envelope ∈ items, envelope.command ≠ .heartbeat ∧
          ∀ tick, envelope.executeAt = some tick → c.checkTimestamp tick = .ok ()) ∧
        items.length ≤ c.queueCapacity - c.queue.length) := by
  induction items generalizing c with
  | nil => exact ⟨[], (List.append_nil _).symm, iff_of_true nofun ⟨nofun, Nat.zero_le _⟩⟩
  | cons incoming rest ih =>
    obtain ⟨hhead, hrest⟩ := List.forall_mem_cons.mp hat
    have hnext := @ih (c.accept incoming) ((c.accept_latchedFault incoming).trans hfault) hrest
    have haccepts := c.accepts_accept incoming
    simp only [List.foldl_cons, List.forall_mem_cons, List.length_cons]
    generalize c.accept incoming = next, c.admitted incoming = m at haccepts hnext ⊢
    obtain ⟨later, htrace, hiff⟩ := hnext
    cases haccepts with
    | reject what reason hadmission =>
      refine ⟨.rejected c.now what reason :: later, ?_, iff_of_false ?_ ?_⟩
      · rw [htrace, record, List.append_assoc]
        rfl
      · exact fun hall => hall _ (.head _) trivial
      · rintro ⟨⟨⟨hcommand, hwindow⟩, -⟩, hroom⟩
        rw [admission_eq_some.mpr ⟨hfault, hcommand, hwindow, by omega, rfl⟩] at hadmission
        cases hadmission
    | heartbeat hadmission => exact absurd hadmission (c.admission_ne_none hhead)
    | queue what queued hadmission =>
      obtain ⟨-, hcommand, hwindow, hroom, -⟩ := admission_eq_some.mp hadmission
      have hlength : ((c.record [.accepted c.now what]).enqueue queued).queue.length =
          c.queue.length + 1 := by
        rw [enqueue_queue, Agenda.length_insertByDue]
        rfl
      refine ⟨.accepted c.now what :: later, ?_, ?_⟩
      · rw [htrace, enqueue, record, List.append_assoc]
        rfl
      · rw [List.forall_mem_cons, hiff, hlength]
        constructor
        · rintro ⟨-, hlater, hfits⟩
          exact ⟨⟨⟨hcommand, hwindow⟩, hlater⟩, by simp only [enqueue, record] at hfits; omega⟩
        · rintro ⟨⟨-, hlater⟩, hfits⟩
          exact ⟨id, hlater, by simp only [enqueue, record]; omega⟩

end SimController
end Dryer.Simulator

namespace Dryer.Workflow
open Library ControlProtocol ControlClient Daemon Simulator

variable {θ : Type}

/-- A sink that hands each frame to the controller. -/
def simSink : FrameSink (SimController θ) String where
  sendFrame frame c :=
    let (result, c) := c.processWireFrame frame
    ((result.map fun _ => ()).mapError fun e => "Wire frame error: " ++ e, c)

/-- A session status with the queue of the controller. -/
def readStatus (c : SimController θ) (base : ControllerSessionStatus) : ControllerSessionStatus :=
  { base with
    queueCapacity := UInt16.ofNat c.queueStatus.capacity
    queueFill := UInt16.ofNat c.queueStatus.fillLevel
    earliestAcceptedTick := c.queueStatus.earliestAcceptedTimestamp
    latestAcceptedTick := c.queueStatus.latestAcceptedTimestamp
    underrun := c.latchedFault.isSome }

/-- A runner with a client of the controller, which has another link beside it. -/
structure Plant (θ : Type) where
  runner : WorkflowRunner
  client : CommandClient (SimController θ)
  transport : SimTransport

def Plant.controller (plant : Plant θ) : SimController θ := plant.client.sink

inductive PlantEvent where
  | runner (event : RunnerEvent)
  | readStatus (base : ControllerSessionStatus)
  | dispatch
  | controller (event : RigEvent)

/-- One event at the plant. A dispatch emits what it adds to the trace of the controller. -/
def plantMachine (θ : Type) [F64 θ] : Machine (Plant θ) PlantEvent Event where
  step plant
    | .runner event => ({ plant with runner := (runnerMachine.step plant.runner event).1 }, [])
    | .readStatus base =>
      ({ plant with
        runner := plant.runner.updateControllerStatus (readStatus plant.controller base) }, [])
    | .dispatch =>
      let (_, runner, client) := plant.runner.dispatchToClient simSink plant.client
      ({ plant with runner, client }, client.sink.trace.drop plant.controller.trace.length)
    | .controller event =>
      let rig := ((rigMachine θ).step ⟨plant.controller, plant.transport⟩ event).1
      ({ plant with
        client := { plant.client with sink := rig.controller }
        transport := rig.transport }, [])

/-- The runner has the window of the controller of this tick, which has no fault and its default
window. -/
structure Current (plant : Plant θ) : Prop where
  fault : plant.controller.latchedFault = none
  window : plant.controller.queueWindow = .default
  status : ∃ status, plant.runner.lastControllerStatus = some status ∧
    status.earliestAcceptedTick = plant.controller.queueStatus.earliestAcceptedTimestamp ∧
    status.latestAcceptedTick = plant.controller.queueStatus.latestAcceptedTimestamp

/-- Requested ticks are aligned, and a dispatch uses a status of its tick. -/
def Prepared (plant : Plant θ) : PlantEvent → Prop
  | .runner event => ∀ envelope ∈ event.items, Aligned envelope
  | .dispatch => Current plant
  | _ => True

/-- The commands that a dispatch sends: its batch, up to the first that cannot be encoded. -/
def WorkflowRunner.sentItems (runner : WorkflowRunner) : List CommandEnvelope :=
  (runner.jobQueue.take runner.batchCount).takeWhile (·.command.StringsFit)

/-- What the controller asks of the commands of a dispatch, over what the runner ensures. -/
structure BatchFits (plant : Plant θ) : Prop where
  commands : ∀ envelope ∈ plant.runner.sentItems, envelope.command ≠ .heartbeat
  room : plant.runner.sentItems.length ≤
    plant.controller.queueCapacity - plant.controller.queue.length
  paced : Paced plant.runner.config.scheduleLeadMarginUs plant.runner.dispatchLimits
    plant.runner.lastDispatchedTick plant.runner.sentItems
  aligned : AlignedLimits plant.runner.dispatchLimits plant.runner.lastDispatchedTick ∨
    PacedAligned plant.runner.config.scheduleLeadMarginUs plant.runner.dispatchLimits
      plant.runner.lastDispatchedTick plant.runner.sentItems

def DispatchFits (plant : Plant θ) (event : PlantEvent) : Prop :=
  event = .dispatch → BatchFits plant

/-! ## Sending to the controller -/

/-- The controller takes every command that can be encoded. -/
theorem simSink_bytes (c : SimController θ) (frame : CommandFrame) (h : frame.StringsFit) :
    simSink.sendFrame frame.bytes c = (.ok (), c.accept frame.envelope) := by
  simp only [simSink, c.processWireFrame_bytes h]
  rfl

theorem sendBatch_simSink (receipts : List SendReceipt) (client : CommandClient (SimController θ))
    (batch : List CommandEnvelope) :
    (sendBatch simSink receipts client batch).2.sink =
      (batch.takeWhile (·.command.StringsFit)).foldl SimController.accept client.sink := by
  induction batch generalizing receipts client with
  | nil => rfl
  | cons envelope rest ih =>
    have hsends := sends_sendEnvelope simSink client envelope
    rw [sendBatch]
    generalize sendEnvelope simSink client envelope = outcome at hsends ⊢
    obtain ⟨result, next⟩ := outcome
    dsimp only at hsends
    cases hsends with
    | unencodable e _ hfits hsink => simp [hfits, hsink]
    | refused e _ hfits hsend =>
      rw [simSink_bytes client.sink (client.nextFrame envelope) hfits] at hsend
      cases hsend
    | sent receipt _ hfits hsend =>
      rw [simSink_bytes client.sink (client.nextFrame envelope) hfits] at hsend
      have hsink : next.sink = client.sink.accept envelope := (congrArg Prod.snd hsend).symm
      simp [hfits, ih, hsink]

namespace WorkflowRunner

variable (marginUs : UInt64) (limits : DispatchLimits)

/-- Scheduling does not change which commands can be encoded. -/
theorem takeWhile_schedule (last : Option Tick) (items : List CommandEnvelope) :
    (schedule marginUs limits last items).1.takeWhile (·.command.StringsFit) =
      (schedule marginUs limits last (items.takeWhile (·.command.StringsFit))).1 := by
  induction items generalizing last with
  | nil => rfl
  | cons envelope rest ih =>
    by_cases hfits : envelope.command.StringsFit
    · simp [schedule, hfits, ih]
    · simp [schedule, hfits]

end WorkflowRunner

/-! ## One dispatch -/

namespace Current

variable {plant : Plant θ}

theorem dispatchLimits (h : Current plant) :
    plant.runner.dispatchLimits.earliestAccepted =
        plant.controller.queueStatus.earliestAcceptedTimestamp ∧
      plant.runner.dispatchLimits.latestAccepted =
        plant.controller.queueStatus.latestAcceptedTimestamp := by
  obtain ⟨status, hlast, hearliest, hlatest⟩ := h.status
  unfold WorkflowRunner.dispatchLimits
  rw [hlast]
  exact ⟨hearliest, hlatest⟩

/-- The default window is not empty, and a latest tick in it is known. -/
theorem window_ordered (h : Current plant) :
    plant.runner.dispatchLimits.earliestAccepted ≤ plant.runner.dispatchLimits.latestAccepted ∧
      plant.runner.dispatchLimits.latestAccepted > 0 := by
  obtain ⟨hearliest, hlatest⟩ := h.dispatchLimits
  have hlead : QueueWindow.default.minLeadTicks.toNat = 100000 := rfl
  have hhorizon : QueueWindow.default.maxHorizonTicks.toNat = 1000000 := rfl
  have hzero : (0 : Tick).toNat = 0 := rfl
  rw [hearliest, hlatest]
  simp only [SimController.queueStatus, h.window, gt_iff_lt, UInt64.le_iff_toNat_le,
    UInt64.lt_iff_toNat_lt, U64.toNat_saturatingAdd]
  omega

/-- A runner that has just read the status has the window of the controller. -/
theorem of_readStatus [F64 θ] (base : ControllerSessionStatus)
    (hfault : plant.controller.latchedFault = none)
    (hwindow : plant.controller.queueWindow = .default) :
    Current ((plantMachine θ).step plant (.readStatus base)).1 :=
  ⟨hfault, hwindow, _, rfl, rfl, rfl⟩

end Current

/-- The commands of a dispatch as the controller gets them. -/
def WorkflowRunner.sentBatch (runner : WorkflowRunner) : List CommandEnvelope :=
  (WorkflowRunner.schedule runner.config.scheduleLeadMarginUs runner.dispatchLimits
    runner.lastDispatchedTick runner.sentItems).1

theorem dispatch_sink [F64 θ] (plant : Plant θ) :
    ((plantMachine θ).step plant .dispatch).1.controller =
      plant.runner.sentBatch.foldl SimController.accept plant.controller := by
  have hsink := sendBatch_simSink [] plant.client plant.runner.nextDispatchBatch.1
  refine hsink.trans ?_
  rw [WorkflowRunner.nextDispatchBatch_fst, WorkflowRunner.takeWhile_schedule]
  rfl

/-- The commands of a batch are admitted, apart from the room for them, exactly when none is a
heartbeat and the pace of the batch fits. -/
theorem checked_iff {plant : Plant θ} (hcurrent : Current plant) :
    (∀ envelope ∈ plant.runner.sentBatch, envelope.command ≠ .heartbeat ∧
      ∀ tick, envelope.executeAt = some tick → plant.controller.checkTimestamp tick = .ok ()) ↔
      (∀ envelope ∈ plant.runner.sentItems, envelope.command ≠ .heartbeat) ∧
        Paced plant.runner.config.scheduleLeadMarginUs plant.runner.dispatchLimits
          plant.runner.lastDispatchedTick plant.runner.sentItems ∧
        PacedAligned plant.runner.config.scheduleLeadMarginUs plant.runner.dispatchLimits
          plant.runner.lastDispatchedTick plant.runner.sentItems := by
  obtain ⟨hearliest, hlatest⟩ := hcurrent.dispatchLimits
  obtain ⟨hordered, hknown⟩ := hcurrent.window_ordered
  have hcommands : (∀ envelope ∈ plant.runner.sentBatch, envelope.command ≠ .heartbeat) ↔
      ∀ envelope ∈ plant.runner.sentItems, envelope.command ≠ .heartbeat := by
    have hsame := WorkflowRunner.commands_schedule plant.runner.config.scheduleLeadMarginUs
      plant.runner.dispatchLimits plant.runner.lastDispatchedTick plant.runner.sentItems
    have hmap (items : List CommandEnvelope) :
        (∀ envelope ∈ items, envelope.command ≠ .heartbeat) ↔
          ∀ command ∈ commands items, command ≠ .heartbeat := by simp [commands]
    rw [hmap, hmap, WorkflowRunner.sentBatch, hsame]
  have hchecks : (∀ envelope ∈ plant.runner.sentBatch, ∀ tick, envelope.executeAt = some tick →
      plant.controller.checkTimestamp tick = .ok ()) ↔
        ∀ envelope ∈ plant.runner.sentBatch, ∀ tick, envelope.executeAt = some tick →
          tick ≤ plant.runner.dispatchLimits.latestAccepted ∧ tick % stepTicks = 0 := by
    refine forall₂_congr fun envelope henvelope => forall₂_congr fun tick htick => ?_
    obtain ⟨_, hat, hle⟩ := earliest_le_schedule hordered _ _ envelope henvelope
    obtain rfl := Option.some.inj (hat.symm.trans htick)
    rw [SimController.checkTimestamp_eq_ok, ← hearliest, ← hlatest]
    exact ⟨fun h => ⟨h.2.2, h.1⟩, fun h => ⟨h.2, hle, h.1⟩⟩
  simp only [imp_and, forall_and, hcommands, ← schedule_fits_iff hknown]
  rw [hchecks]
  simp only [imp_and, forall_and]
  rfl

/-- The controller accepts every command of a dispatch exactly when the batch fits. -/
theorem dispatch_accepted_iff [F64 θ] {plant : Plant θ} (hcurrent : Current plant)
    (hmargin : plant.runner.config.scheduleLeadMarginUs % stepTicks = 0)
    (hqueue : ∀ envelope ∈ plant.runner.jobQueue, Aligned envelope) :
    (∀ event ∈ ((plantMachine θ).step plant .dispatch).2, ¬ event.Rejects) ↔ BatchFits plant := by
  have hat : ∀ envelope ∈ plant.runner.sentBatch, envelope.executeAt.isSome := by
    intro envelope henvelope
    obtain ⟨tick, htick, -⟩ := earliest_le_schedule hcurrent.window_ordered.1 _ _ envelope henvelope
    rw [htick]
    rfl
  obtain ⟨later, htrace, hiff⟩ :=
    SimController.foldl_accept_rejects_iff hcurrent.fault hat
  have hemitted : ((plantMachine θ).step plant .dispatch).2 = later := by
    have hdropped : ((plantMachine θ).step plant .dispatch).2 =
        ((plantMachine θ).step plant .dispatch).1.controller.trace.drop
          plant.controller.trace.length := rfl
    rw [hdropped, dispatch_sink, htrace, List.drop_left]
  have hlength : plant.runner.sentBatch.length = plant.runner.sentItems.length :=
    WorkflowRunner.length_schedule _ _ _ _
  have hsent : ∀ envelope ∈ plant.runner.sentItems, Aligned envelope := fun envelope henvelope =>
    hqueue envelope (List.mem_of_mem_take ((List.takeWhile_prefix _).subset henvelope))
  rw [hemitted, hiff, checked_iff hcurrent, hlength]
  constructor
  · rintro ⟨⟨hcommands, hpaced, haligned⟩, hroom⟩
    exact ⟨hcommands, hroom, hpaced, .inr haligned⟩
  · rintro ⟨hcommands, hroom, hpaced, haligned⟩
    exact ⟨⟨hcommands, hpaced, haligned.elim (pacedAligned hmargin hsent) id⟩, hroom⟩

/-! ## Runs -/

/-- One call of the runner keeps its queue aligned. -/
theorem runnerStep_aligned {runner : WorkflowRunner} (event : RunnerEvent)
    (hqueue : ∀ envelope ∈ runner.jobQueue, Aligned envelope)
    (hitems : ∀ envelope ∈ event.items, Aligned envelope) :
    ∀ envelope ∈ (runnerMachine.step runner event).1.jobQueue, Aligned envelope := by
  have hmoves := runnerMoves_step runner event
  generalize (runnerMachine.step runner event).1 = next, (runnerMachine.step runner event).2 = m
    at hmoves ⊢
  cases hmoves with
  | refused | auditor | status => exact hqueue
  | enqueued => exact List.forall_mem_append.mpr ⟨hqueue, hitems⟩
  | dispatched batch _ hdispatches =>
    cases hdispatches with
    | nothing => exact hqueue
    | batch count =>
      exact fun envelope henvelope => hqueue envelope (List.mem_of_mem_drop henvelope)

/-- In a run whose dispatches use the status of their tick, the controller accepts every command
exactly when every batch fits. -/
theorem dispatches_accepted_iff [F64 θ] {config : RunnerConfig}
    (hmargin : config.scheduleLeadMarginUs % stepTicks = 0)
    (client : CommandClient (SimController θ)) (transport : SimTransport)
    {events : List PlantEvent}
    (hprepared : (plantMachine θ).Along Prepared ⟨.new config, client, transport⟩ events) :
    (∀ event ∈ ((plantMachine θ).run ⟨.new config, client, transport⟩ events).2,
      ¬ event.Rejects) ↔
      (plantMachine θ).Along DispatchFits ⟨.new config, client, transport⟩ events := by
  refine Machine.forall_output_iff_along (M := plantMachine θ)
    (I := fun plant : Plant θ => plant.runner.config = config ∧
      ∀ envelope ∈ plant.runner.jobQueue, Aligned envelope) ?_ ?_
    ⟨rfl, List.forall_mem_nil _⟩ hprepared
  · rintro plant event ⟨hconfig, hqueue⟩ hevent
    cases event with
    | runner event =>
      exact ⟨(runnerStep_config plant.runner event).trans hconfig,
        runnerStep_aligned event hqueue hevent⟩
    | readStatus base => exact ⟨hconfig, hqueue⟩
    | dispatch =>
      exact ⟨(runnerStep_config plant.runner .nextDispatchBatch).trans hconfig,
        runnerStep_aligned .nextDispatchBatch hqueue (List.forall_mem_nil _)⟩
    | controller event => exact ⟨hconfig, hqueue⟩
  · rintro plant event ⟨hconfig, hqueue⟩ hevent
    cases event with
    | dispatch =>
      rw [dispatch_accepted_iff hevent (hconfig ▸ hmargin) hqueue]
      exact ⟨fun hfits _ => hfits, fun hfits => hfits rfl⟩
    | runner | readStatus | controller => exact iff_of_true nofun nofun

/-- A batch with and without requested ticks, and one more command after a step. -/
theorem dispatches_accepted_mixed_batch :
    let client : CommandClient (SimController ℤ) :=
      .new (.new 25000 [⟨"bed", 175000, 60000, "off", some 500000⟩] [⟨"x", 5000⟩, ⟨"y", 0⟩])
    let base : ControllerSessionStatus := ⟨"mcu1", 500000, 0, 0, 0, 0, 0, false, true⟩
    let batch : List CommandEnvelope :=
      [⟨none, .home "x" 10000⟩, ⟨some 250000, .move "x" 100 20000⟩, ⟨none, .move "y" 40 20000⟩,
        ⟨some 251000, .setHeaterTarget "bed" 60000⟩]
    let events : List PlantEvent :=
      [.runner (.enqueueBatch batch), .readStatus base, .dispatch,
        .runner (.enqueue ⟨some 300000, .move "x" 100 20000⟩), .controller .step,
        .readStatus base, .dispatch]
    (plantMachine ℤ).Along DispatchFits ⟨.new .default, client, .new .default⟩ events := by
  intro client base batch events
  have hbatch : ∀ envelope ∈ batch, Aligned envelope := by
    simp [batch, Aligned, stepTicks, ticksPerMs]
  have hsingle : Aligned ⟨some 300000, .move "x" 100 20000⟩ := by
    simp [Aligned, stepTicks, ticksPerMs]
  have hprepared : (plantMachine ℤ).Along Prepared ⟨.new .default, client, .new .default⟩ events :=
    ⟨hbatch, trivial, .of_readStatus base rfl rfl, List.forall_mem_singleton.mpr hsingle, trivial,
      trivial, .of_readStatus base (by decide +kernel) (by decide +kernel), trivial⟩
  have hemitted : ((plantMachine ℤ).run ⟨.new .default, client, .new .default⟩ events).2 =
      [.accepted 0 "home x @ 100000", .accepted 0 "move x 100 um @ 250000",
        .accepted 0 "move y 40 um @ 251000", .accepted 0 "set bed -> 60000 mC @ 252000",
        .accepted 1000 "move x 100 um @ 300000"] := by
    decide +kernel
  refine (dispatches_accepted_iff (by decide) client (.new .default) hprepared).mp ?_
  rw [hemitted]
  simp [Event.Rejects]

/-- The runner gives a heartbeat a tick, and the controller rejects it. -/
theorem dispatched_heartbeat_is_rejected :
    let client : CommandClient (SimController ℤ) := .new (.new 25000 [] [⟨"x", 5000⟩])
    let base : ControllerSessionStatus := ⟨"mcu1", 500000, 0, 0, 0, 0, 0, false, true⟩
    let events : List PlantEvent :=
      [.runner (.enqueue ⟨none, .heartbeat⟩), .readStatus base, .dispatch]
    (plantMachine ℤ).Along Prepared ⟨.new .default, client, .new .default⟩ events ∧
      ¬ ∀ event ∈ ((plantMachine ℤ).run ⟨.new .default, client, .new .default⟩ events).2,
        ¬ event.Rejects := by
  intro client base events
  refine ⟨⟨List.forall_mem_singleton.mpr nofun, trivial, .of_readStatus base rfl rfl, trivial⟩,
    fun hall => ?_⟩
  have hemitted : ((plantMachine ℤ).run ⟨.new .default, client, .new .default⟩ events).2 =
      [.rejected 0 "heartbeat @ 100000" "heartbeat cannot be scheduled"] := by decide +kernel
  rw [hemitted] at hall
  exact hall _ (.head _) trivial

end Dryer.Workflow
