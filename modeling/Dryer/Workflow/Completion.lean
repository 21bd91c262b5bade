import Dryer.Workflow.ControllerAgreement

/-!
# Completion

The runner concludes from its own counters and the fill of the controller that a job is
completed. Both queues are empty then, but a command that the controller rejected is counted as
one that it has executed.
-/
namespace Dryer.Simulator
open Library ControlProtocol

namespace SimController

variable {θ : Type} {c : SimController θ}

/-- The commands that come to the queue. -/
def acceptedCommands (marks : List QueueMark) : List Command :=
  (Mark.addedItems marks).map (·.command)

/-- The controller queues all of a list of commands with ticks. -/
structure AcceptsAll (c : SimController θ) (items : List CommandEnvelope) : Prop where
  fault : items ≠ [] → c.latchedFault = none
  commands : ∀ envelope ∈ items, envelope.command ≠ .heartbeat
  ticks : ∀ envelope ∈ items, ∀ tick, envelope.executeAt = some tick →
    c.checkTimestamp tick = .ok ()
  room : items.length ≤ c.queueCapacity - c.queue.length

/-- The queue is no longer than its fixed capacity. -/
structure WithinCapacity (c : SimController θ) : Prop where
  fixed : c.queueCapacity = 16
  fits : c.queue.length ≤ c.queueCapacity

@[simp] theorem acceptedCommands_append (marks later : List QueueMark) :
    acceptedCommands (marks ++ later) = acceptedCommands marks ++ acceptedCommands later := by
  simp [acceptedCommands]

theorem length_enqueue (c : SimController θ) (queued : QueuedCommand) :
    (c.enqueue queued).queue.length = c.queue.length + 1 := by
  rw [enqueue_queue, Agenda.length_insertByDue]

/-- Once the first command is queued, the whole list is accepted where the rest is. -/
theorem acceptsAll_enqueue_iff {incoming : CommandEnvelope} {queued : QueuedCommand}
    (what : String) (hadmission : c.admission incoming = .ok (some queued))
    (rest : List CommandEnvelope) :
    ((c.record [.accepted c.now what]).enqueue queued).AcceptsAll rest ↔
      c.AcceptsAll (incoming :: rest) := by
  obtain ⟨hfault, hcommand, hticks, hroom, -⟩ := admission_eq_some.mp hadmission
  have hlength := length_enqueue (c.record [.accepted c.now what]) queued
  constructor
  · rintro ⟨-, hcommands, hrestTicks, hrestRoom⟩
    refine ⟨fun _ => hfault, List.forall_mem_cons.mpr ⟨hcommand, hcommands⟩,
      List.forall_mem_cons.mpr ⟨hticks, hrestTicks⟩, ?_⟩
    rw [hlength] at hrestRoom
    simp only [List.length_cons, enqueue, record] at hrestRoom ⊢
    omega
  · rintro ⟨-, hcommands, hallTicks, hallRoom⟩
    refine ⟨fun _ => hfault, (List.forall_mem_cons.mp hcommands).2,
      (List.forall_mem_cons.mp hallTicks).2, ?_⟩
    rw [hlength]
    simp only [List.length_cons, enqueue, record] at hallRoom ⊢
    omega

/-- Of a list of commands with ticks all are queued, or fewer than there are. -/
theorem acceptedCommands_admittedAll {items : List CommandEnvelope}
    (hat : ∀ envelope ∈ items, envelope.executeAt.isSome) :
    (c.AcceptsAll items → acceptedCommands (c.admittedAll items) = items.map (·.command)) ∧
      (¬ c.AcceptsAll items → (acceptedCommands (c.admittedAll items)).length < items.length) := by
  induction items generalizing c with
  | nil =>
    refine ⟨fun _ => rfl, fun hnot => absurd ?_ hnot⟩
    exact ⟨fun h => absurd rfl h, nofun, nofun, Nat.zero_le _⟩
  | cons incoming rest ih =>
    obtain ⟨hhead, hrest⟩ := List.forall_mem_cons.mp hat
    obtain ⟨hall, hfewer⟩ := @ih (c.accept incoming) hrest
    have hle : (acceptedCommands ((c.accept incoming).admittedAll rest)).length ≤ rest.length := by
      by_cases h : (c.accept incoming).AcceptsAll rest
      · rw [hall h, List.length_map]
      · exact (hfewer h).le
    have haccepts := c.accepts_accept incoming
    rw [admittedAll, acceptedCommands_append]
    generalize c.accept incoming = next, c.admitted incoming = m at haccepts hall hfewer hle ⊢
    cases haccepts with
    | reject what reason hadmission =>
      refine ⟨fun h => ?_, fun _ => Nat.lt_succ_of_le hle⟩
      have hroom := h.room
      rw [List.length_cons] at hroom
      have hqueued := admission_eq_some.mpr ⟨h.fault (List.cons_ne_nil _ _),
        h.commands incoming (.head _), h.ticks incoming (.head _), by omega, rfl⟩
      rw [hqueued] at hadmission
      cases hadmission
    | heartbeat hadmission => exact absurd hadmission (c.admission_ne_none hhead)
    | queue what queued hadmission =>
      have hiff := acceptsAll_enqueue_iff what hadmission rest
      obtain ⟨-, -, -, -, rfl⟩ := admission_eq_some.mp hadmission
      rw [← hiff]
      exact ⟨fun h => congrArg _ (hall h), fun h => Nat.succ_lt_succ (hfewer h)⟩

/-! ## The queue -/

theorem WithinCapacity.accept (h : c.WithinCapacity) (incoming : CommandEnvelope) :
    (c.accept incoming).WithinCapacity := by
  have haccepts := c.accepts_accept incoming
  generalize c.accept incoming = next, c.admitted incoming = m at haccepts ⊢
  cases haccepts with
  | reject | heartbeat => exact ⟨h.fixed, h.fits⟩
  | queue what queued hadmission =>
    obtain ⟨-, -, -, hroom, -⟩ := admission_eq_some.mp hadmission
    exact ⟨h.fixed, (length_enqueue _ queued).trans_le hroom⟩

theorem WithinCapacity.accept_all (h : c.WithinCapacity) (arrived : List CommandEnvelope) :
    (arrived.foldl SimController.accept c).WithinCapacity :=
  @foldl_accept θ (fun c _ => c.WithinCapacity) (fun _ _ incoming h => h.accept incoming) c [] h
    arrived

/-- An empty queue stays empty, as long as nothing comes to it. -/
theorem queue_accept_all (arrived : List CommandEnvelope) (hqueue : c.queue = [])
    (hnone : Mark.addedItems (c.admittedAll arrived) = []) :
    (arrived.foldl SimController.accept c).queue = [] := by
  refine @foldl_accept θ (fun c marks => Mark.addedItems marks = [] → c.queue = [])
    (fun c marks incoming h hmarks => ?_) c [] (fun _ => hqueue) arrived hnone
  rw [Mark.addedItems_append, List.append_eq_nil_iff] at hmarks
  have haccepts := c.accepts_accept incoming
  generalize c.accept incoming = next, c.admitted incoming = m at haccepts hmarks ⊢
  cases haccepts with
  | reject | heartbeat => exact h hmarks.1
  | queue => exact absurd hmarks.2 (List.cons_ne_nil _ _)

end SimController

variable {θ : Type} [F64 θ] {rig : Rig θ}

theorem withinCapacity_step (h : rig.controller.WithinCapacity) (event : RigEvent) :
    ((rigMachine θ).step rig event).1.controller.WithinCapacity := by
  have hmoves := rigMoves_step rig event
  generalize ((rigMachine θ).step rig event).1.controller = next,
    ((rigMachine θ).step rig event).2 = m at hmoves ⊢
  cases hmoves with
  | stay | window => exact ⟨h.fixed, h.fits⟩
  | accept _ incoming => exact h.accept incoming
  | reset => exact ⟨h.fixed, Nat.zero_le _⟩
  | step arrived =>
    have hreceived : (rig.controller.receive arrived).WithinCapacity :=
      SimController.WithinCapacity.accept_all (⟨h.fixed, h.fits⟩ :
        { rig.controller with now := rig.controller.now + stepTicks }.WithinCapacity) arrived
    obtain ⟨events, next, hexecute, -⟩ := (rig.controller.receive arrived).execute_eq
    rw [hexecute]
    exact ⟨hreceived.fixed, (List.dropWhile_suffix _).length_le.trans hreceived.fits⟩

/-- An empty queue stays empty in an event that adds nothing to it. -/
theorem queue_step (hqueue : rig.controller.queue = []) (event : RigEvent)
    (hnone : Mark.addedItems ((rigMachine θ).step rig event).2 = []) :
    ((rigMachine θ).step rig event).1.controller.queue = [] := by
  have hmoves := rigMoves_step rig event
  generalize ((rigMachine θ).step rig event).1.controller = next,
    ((rigMachine θ).step rig event).2 = m at hmoves hnone ⊢
  cases hmoves with
  | stay | window => exact hqueue
  | accept _ incoming =>
    refine SimController.queue_accept_all [incoming] hqueue ?_
    rwa [SimController.admittedAll, SimController.admittedAll, List.append_nil]
  | reset => rfl
  | step arrived =>
    rw [Mark.addedItems_append, List.append_eq_nil_iff] at hnone
    have hreceived : (rig.controller.receive arrived).queue = [] :=
      SimController.queue_accept_all arrived hqueue hnone.1
    obtain ⟨events, next, hexecute, -⟩ := (rig.controller.receive arrived).execute_eq
    rw [hexecute, hreceived]
    rfl

end Dryer.Simulator

namespace Dryer.Workflow
open Library ControlProtocol ControlClient Daemon Simulator

variable {θ : Type}

/-- What an event does at the runner, and what a dispatch brings to the queue of the
controller. -/
inductive PlantMark where
  | runner (mark : RunnerMark)
  | sent (mark : QueueMark)

def PlantMark.enqueuedCommands : PlantMark → List Command
  | .runner mark => commands (enqueuedItems [mark])
  | .sent _ => []

def PlantMark.dispatchedCommands : PlantMark → List Command
  | .runner mark => commands (dispatchedItems [mark])
  | .sent _ => []

def PlantMark.acceptedCommands : PlantMark → List Command
  | .runner _ => []
  | .sent mark => SimController.acceptedCommands [mark]

/-- The call of the runner in an event. -/
def runnerEvent (plant : Plant θ) : PlantEvent → Option RunnerEvent
  | .runner event => some event
  | .readStatus base => some (.updateControllerStatus (readStatus plant.controller base))
  | .dispatch => some .nextDispatchBatch
  | .controller _ => none

def runnerMarks (plant : Plant θ) (event : PlantEvent) : List RunnerMark :=
  (runnerEvent plant event).elim [] fun event => (runnerMachine.step plant.runner event).2

def sentMarks (plant : Plant θ) : PlantEvent → List QueueMark
  | .dispatch => plant.controller.admittedAll plant.runner.sentBatch
  | _ => []

/-- The plant with the marks of the runner and of its dispatches. -/
def markedPlant (θ : Type) [F64 θ] : Machine (Plant θ) PlantEvent PlantMark where
  step plant event :=
    (((plantMachine θ).step plant event).1,
      (runnerMarks plant event).map .runner ++ (sentMarks plant event).map .sent)

/-- The runner reads the status from the controller and dispatches to it, and nothing else brings
commands to the queue of the controller. -/
def Driven [F64 θ] (plant : Plant θ) : PlantEvent → Prop
  | .runner event => event ≠ .nextDispatchBatch ∧ event.status? = none
  | .controller event =>
    Mark.addedItems ((rigMachine θ).step ⟨plant.controller, plant.transport⟩ event).2 = []
  | _ => True

/-- Every command of a dispatch can be encoded, and the controller queues it. -/
def BatchAccepted (plant : Plant θ) (event : PlantEvent) : Prop :=
  event = .dispatch →
    (∀ envelope ∈ plant.runner.jobQueue.take plant.runner.batchCount,
      envelope.command.StringsFit) ∧
    plant.controller.AcceptsAll plant.runner.sentBatch

/-- What the counters of the runner say of the queues. -/
structure Counted (plant : Plant θ) (marks : List PlantMark) : Prop where
  conserved : ∃ runnerMarks, Conserved plant.runner runnerMarks ∧
    commands (enqueuedItems runnerMarks) = marks.flatMap PlantMark.enqueuedCommands ∧
    commands (dispatchedItems runnerMarks) = marks.flatMap PlantMark.dispatchedCommands
  capacity : plant.controller.WithinCapacity
  counted : plant.runner.totalCompleted = plant.runner.totalDispatched →
    0 < plant.runner.totalDispatched → plant.controller.queue = []
  completed : plant.runner.state = .completed →
    plant.runner.jobQueue = [] ∧ plant.controller.queue = []

/-! ## The runner -/

/-- A call that enqueues does not complete the job. -/
theorem runnerStep_completed {runner : WorkflowRunner} {event : RunnerEvent}
    (hevent : event ≠ .nextDispatchBatch ∧ event.status? = none)
    (h : (runnerMachine.step runner event).1.state = .completed) :
    runner.state = .completed ∧ (runnerMachine.step runner event).1.jobQueue = runner.jobQueue := by
  have hresumed : runner.resumed ≠ .completed := by
    unfold WorkflowRunner.resumed
    split
    · exact nofun
    · rename_i hother
      exact (not_or.mp hother).2
  cases event with
  | setAuditor | clearAuditor => exact ⟨h, rfl⟩
  | enqueue envelope =>
    simp only [runnerMachine, WorkflowRunner.enqueue] at h ⊢
    split at h
    · exact ⟨h, rfl⟩
    · exact absurd h hresumed
  | enqueueBatch items =>
    simp only [runnerMachine, WorkflowRunner.enqueueBatch] at h ⊢
    by_cases hempty : items.isEmpty
    · rw [if_pos hempty] at h ⊢
      exact ⟨h, rfl⟩
    rw [if_neg hempty] at h ⊢
    cases haudit : runner.auditFailure (items.map (·.command)) with
    | some report =>
      rw [haudit] at h
      exact ⟨h, rfl⟩
    | none =>
      rw [haudit] at h
      exact absurd h hresumed
  | updateControllerStatus => cases hevent.2
  | nextDispatchBatch => exact absurd rfl hevent.1

/-- A status completes the job with an empty fill, or leaves it completed. -/
theorem updateControllerStatus_completed {runner : WorkflowRunner}
    {status : ControllerSessionStatus}
    (h : (runner.updateControllerStatus status).state = .completed) :
    runner.jobQueue = [] ∧ status.queueFill.toNat = 0 ∨ runner.state = .completed := by
  have hchecked : runner.checkedState status = .completed → runner.state = .completed := by
    unfold WorkflowRunner.checkedState
    split
    · exact nofun
    split
    · exact nofun
    · exact id
  simp only [WorkflowRunner.updateControllerStatus] at h
  split at h
  · rename_i hcompleted
    exact .inl ⟨List.isEmpty_iff.mp hcompleted.1, hcompleted.2.1⟩
  split at h
  · cases h
  · exact .inr (hchecked h)

/-- A dispatch completes the job by the counters alone, or leaves it completed. -/
theorem nextDispatchBatch_completed {runner : WorkflowRunner}
    (h : runner.nextDispatchBatch.2.state = .completed) :
    (runner.jobQueue = [] ∧ runner.totalCompleted = runner.totalDispatched ∧
      0 < runner.totalDispatched) ∨ runner.state = .completed := by
  unfold WorkflowRunner.nextDispatchBatch at h
  split at h
  · exact .inr h
  split at h
  · rename_i hempty
    simp only at h
    split at h
    · rename_i hcounted
      exact .inl ⟨List.isEmpty_iff.mp hempty, hcounted.1, hcounted.2⟩
    split at h
    · cases h
    · exact .inr h
  split at h
  · cases h
  unfold WorkflowRunner.dispatch at h
  simp only at h
  split at h
  · cases h
  split at h
  · exact .inr h
  simp only at h
  split at h
  · cases h
  · exact .inr h

/-! ## A status and a dispatch -/

/-- A fill of 0 is an empty queue, as the capacity is small. -/
theorem queue_of_fill {c : SimController θ} (h : c.WithinCapacity)
    (base : ControllerSessionStatus) (hfill : (readStatus c base).queueFill.toNat = 0) :
    c.queue = [] := by
  have hlength : c.queue.length ≤ 16 := h.fixed ▸ h.fits
  simp only [readStatus, SimController.queueStatus, UInt16.toNat_ofNat'] at hfill
  exact List.length_eq_zero_iff.mp (by omega)

/-- With nothing to dispatch the controller gets nothing. -/
theorem sentBatch_eq_nil {runner : WorkflowRunner}
    (h : runner.jobQueue.take runner.batchCount = []) : runner.sentBatch = [] := by
  rw [WorkflowRunner.sentBatch, WorkflowRunner.sentItems, h]
  rfl

/-- What a dispatch brings to the controller, when the batch is accepted, and when it is not. -/
theorem acceptedCommands_dispatch (plant : Plant θ) :
    (BatchAccepted plant .dispatch →
      SimController.acceptedCommands (sentMarks plant .dispatch) =
        commands (plant.runner.jobQueue.take plant.runner.batchCount)) ∧
    (¬ BatchAccepted plant .dispatch →
      (SimController.acceptedCommands (sentMarks plant .dispatch)).length <
        (plant.runner.jobQueue.take plant.runner.batchCount).length) := by
  obtain ⟨hall, hfewer⟩ := @SimController.acceptedCommands_admittedAll θ plant.controller
    plant.runner.sentBatch (WorkflowRunner.isSome_schedule _ _ _ _)
  have hcommands : plant.runner.sentBatch.map (·.command) = commands plant.runner.sentItems :=
    WorkflowRunner.commands_schedule _ _ _ _
  have hlength : plant.runner.sentBatch.length = plant.runner.sentItems.length :=
    WorkflowRunner.length_schedule _ _ _ _
  rw [hcommands] at hall
  rw [hlength] at hfewer
  by_cases hfits : ∀ envelope ∈ plant.runner.jobQueue.take plant.runner.batchCount,
      envelope.command.StringsFit
  · have hsent : plant.runner.sentItems = plant.runner.jobQueue.take plant.runner.batchCount :=
      List.takeWhile_eq_self_iff.mpr (by simpa using hfits)
    rw [hsent] at hall hfewer
    exact ⟨fun h => hall (h rfl).2, fun h => hfewer fun haccepts => h fun _ => ⟨hfits, haccepts⟩⟩
  · refine ⟨fun h => absurd (h rfl).1 hfits, ?_⟩
    intro _
    have hshorter : plant.runner.sentItems <+:
        plant.runner.jobQueue.take plant.runner.batchCount := List.takeWhile_prefix _
    have hshort : plant.runner.sentItems.length <
        (plant.runner.jobQueue.take plant.runner.batchCount).length := by
      refine lt_of_le_of_ne hshorter.length_le fun heq => hfits ?_
      simpa using List.takeWhile_eq_self_iff.mp (hshorter.eq_of_length heq)
    refine lt_of_le_of_lt ?_ hshort
    by_cases haccepts : plant.controller.AcceptsAll plant.runner.sentBatch
    · exact (congrArg List.length (hall haccepts)).trans_le (List.length_map _).le
    · exact (hfewer haccepts).le

/-! ## One event -/

variable [F64 θ]

theorem plantStep_runner (plant : Plant θ) (event : PlantEvent) :
    ((plantMachine θ).step plant event).1.runner =
      (runnerEvent plant event).elim plant.runner fun event =>
        (runnerMachine.step plant.runner event).1 := by
  cases event <;> rfl

theorem flatMap_runner (marks : List RunnerMark) :
    (marks.map PlantMark.runner).flatMap PlantMark.enqueuedCommands =
        commands (enqueuedItems marks) ∧
      (marks.map PlantMark.runner).flatMap PlantMark.dispatchedCommands =
        commands (dispatchedItems marks) := by
  induction marks with
  | nil => exact ⟨rfl, rfl⟩
  | cons mark marks ih =>
    rw [List.map_cons, List.flatMap_cons, List.flatMap_cons, ih.1, ih.2]
    constructor
    · rw [← List.singleton_append, enqueuedItems_append, commands_append]
      rfl
    · rw [← List.singleton_append, dispatchedItems_append, commands_append]
      rfl

theorem flatMap_sent (marks : List QueueMark) :
    (marks.map PlantMark.sent).flatMap PlantMark.acceptedCommands =
      SimController.acceptedCommands marks := by
  induction marks with
  | nil => rfl
  | cons mark marks ih =>
    rw [List.map_cons, List.flatMap_cons, ih, ← List.singleton_append,
      SimController.acceptedCommands_append]
    rfl

theorem flatMap_marks (plant : Plant θ) (event : PlantEvent) :
    ((markedPlant θ).step plant event).2.flatMap PlantMark.enqueuedCommands =
        commands (enqueuedItems (runnerMarks plant event)) ∧
      ((markedPlant θ).step plant event).2.flatMap PlantMark.dispatchedCommands =
        commands (dispatchedItems (runnerMarks plant event)) ∧
      ((markedPlant θ).step plant event).2.flatMap PlantMark.acceptedCommands =
        SimController.acceptedCommands (sentMarks plant event) := by
  have hsent (marks : List QueueMark) :
      (marks.map PlantMark.sent).flatMap PlantMark.enqueuedCommands = [] ∧
        (marks.map PlantMark.sent).flatMap PlantMark.dispatchedCommands = [] := by
    simp [PlantMark.enqueuedCommands, PlantMark.dispatchedCommands]
  have hrunner (marks : List RunnerMark) :
      (marks.map PlantMark.runner).flatMap PlantMark.acceptedCommands = [] := by
    simp [PlantMark.acceptedCommands]
  obtain ⟨henqueued, hdispatched⟩ := flatMap_runner (runnerMarks plant event)
  simp only [markedPlant, List.flatMap_append, henqueued, hdispatched, hsent, hrunner, flatMap_sent,
    List.append_nil, List.nil_append, and_self]

theorem conserved_marks {plant : Plant θ} {marks : List PlantMark}
    (h : ∃ runnerMarks, Conserved plant.runner runnerMarks ∧
      commands (enqueuedItems runnerMarks) = marks.flatMap PlantMark.enqueuedCommands ∧
      commands (dispatchedItems runnerMarks) = marks.flatMap PlantMark.dispatchedCommands)
    (event : PlantEvent) :
    ∃ runnerMarks, Conserved ((markedPlant θ).step plant event).1.runner runnerMarks ∧
      commands (enqueuedItems runnerMarks) =
        (marks ++ ((markedPlant θ).step plant event).2).flatMap PlantMark.enqueuedCommands ∧
      commands (dispatchedItems runnerMarks) =
        (marks ++ ((markedPlant θ).step plant event).2).flatMap PlantMark.dispatchedCommands := by
  obtain ⟨earlier, hconserved, henqueued, hdispatched⟩ := h
  obtain ⟨hnewEnqueued, hnewDispatched, -⟩ := flatMap_marks plant event
  refine ⟨earlier ++ runnerMarks plant event, ?_, ?_, ?_⟩
  · have hrunner : ((markedPlant θ).step plant event).1.runner =
        (runnerEvent plant event).elim plant.runner fun event =>
          (runnerMachine.step plant.runner event).1 := plantStep_runner plant event
    rw [hrunner, runnerMarks]
    cases runnerEvent plant event with
    | none => rwa [Option.elim_none, Option.elim_none, List.append_nil]
    | some call => exact hconserved.step call
  · rw [enqueuedItems_append, commands_append, henqueued, List.flatMap_append, hnewEnqueued]
  · rw [dispatchedItems_append, commands_append, hdispatched, List.flatMap_append, hnewDispatched]

namespace Counted

variable {plant : Plant θ} {marks : List PlantMark}

theorem runner (h : Counted plant marks) {event : RunnerEvent}
    (hevent : event ≠ .nextDispatchBatch ∧ event.status? = none) :
    Counted ((markedPlant θ).step plant (.runner event)).1
      (marks ++ ((markedPlant θ).step plant (.runner event)).2) := by
  refine ⟨conserved_marks h.conserved _, h.capacity, ?_, fun hcompleted => ?_⟩
  · have hmoves := runnerMoves_step plant.runner event
    simp only [markedPlant, plantStep_runner, runnerEvent, Option.elim_some]
    generalize (runnerMachine.step plant.runner event).1 = next,
      (runnerMachine.step plant.runner event).2 = m at hmoves ⊢
    cases hmoves with
    | refused | auditor | enqueued => exact h.counted
    | status => cases hevent.2
    | dispatched => exact absurd rfl hevent.1
  · obtain ⟨hbefore, hqueue⟩ := runnerStep_completed hevent hcompleted
    exact ⟨hqueue.trans (h.completed hbefore).1, (h.completed hbefore).2⟩

theorem readStatus (h : Counted plant marks) (base : ControllerSessionStatus) :
    Counted ((markedPlant θ).step plant (.readStatus base)).1
      (marks ++ ((markedPlant θ).step plant (.readStatus base)).2) := by
  refine ⟨conserved_marks h.conserved _, h.capacity, fun hcounted hpos => ?_, fun hcompleted => ?_⟩
  · apply queue_of_fill h.capacity base
    simp only [markedPlant, plantMachine, WorkflowRunner.updateControllerStatus] at hcounted hpos
    omega
  · obtain ⟨hqueue, hfill⟩ | hbefore := updateControllerStatus_completed hcompleted
    · exact ⟨hqueue, queue_of_fill h.capacity base hfill⟩
    · exact h.completed hbefore

theorem dispatch (h : Counted plant marks) :
    Counted ((markedPlant θ).step plant .dispatch).1
      (marks ++ ((markedPlant θ).step plant .dispatch).2) := by
  have hsink : ((markedPlant θ).step plant .dispatch).1.controller =
      plant.runner.sentBatch.foldl SimController.accept plant.controller := dispatch_sink plant
  have hrunner : ((markedPlant θ).step plant .dispatch).1.runner =
      plant.runner.nextDispatchBatch.2 := rfl
  obtain ⟨state, hnext⟩ := nextDispatchBatch_snd plant.runner
  refine ⟨conserved_marks h.conserved _, ?_, fun hcounted hpos => ?_, fun hcompleted => ?_⟩
  · rw [hsink]
    exact h.capacity.accept_all _
  · obtain ⟨_, hconserved, -⟩ := h.conserved
    have hle := hconserved.totalCompleted
    rw [hrunner, hnext] at hcounted hpos
    simp only at hcounted hpos
    have hnone : plant.runner.batchCount = 0 := by omega
    rw [hsink, sentBatch_eq_nil (by rw [hnone, List.take_zero])]
    exact h.counted (by omega) (by omega)
  · rw [hrunner] at hcompleted
    have hqueues : plant.runner.jobQueue = [] ∧ plant.controller.queue = [] := by
      obtain ⟨hempty, hcounted, hpos⟩ | hbefore := nextDispatchBatch_completed hcompleted
      · exact ⟨hempty, h.counted hcounted hpos⟩
      · exact h.completed hbefore
    rw [hsink, hrunner, hnext, sentBatch_eq_nil (by rw [hqueues.1, List.take_nil])]
    exact ⟨by simp only [hqueues.1, List.drop_nil], hqueues.2⟩

theorem controller (h : Counted plant marks) {event : RigEvent}
    (hnone : Mark.addedItems
      ((rigMachine θ).step ⟨plant.controller, plant.transport⟩ event).2 = []) :
    Counted ((markedPlant θ).step plant (.controller event)).1
      (marks ++ ((markedPlant θ).step plant (.controller event)).2) := by
  have hkept (hqueue : plant.controller.queue = []) :
      ((markedPlant θ).step plant (.controller event)).1.controller.queue = [] :=
    @queue_step θ _ ⟨plant.controller, plant.transport⟩ hqueue event hnone
  refine ⟨conserved_marks h.conserved _, ?_, fun hcounted hpos => hkept (h.counted hcounted hpos),
    fun hcompleted => ⟨(h.completed hcompleted).1, hkept (h.completed hcompleted).2⟩⟩
  exact @withinCapacity_step θ _ ⟨plant.controller, plant.transport⟩ h.capacity event

theorem step (h : Counted plant marks) {event : PlantEvent} (hdriven : Driven plant event) :
    Counted ((markedPlant θ).step plant event).1
      (marks ++ ((markedPlant θ).step plant event).2) := by
  cases event with
  | runner event => exact h.runner hdriven
  | readStatus base => exact h.readStatus base
  | dispatch => exact h.dispatch
  | controller event => exact h.controller hdriven

end Counted

/-! ## Runs -/

/-- A step with nothing on the link brings nothing to the queue. -/
theorem driven_step {plant : Plant θ} (h : plant.transport.inFlight = []) :
    Driven plant (.controller .step) := by
  have harrived : (Rig.mk plant.controller plant.transport).arrived = [] :=
    (SimTransport.deliverDue_nil h _).1
  have hmarks : ((rigMachine θ).step ⟨plant.controller, plant.transport⟩ .step).2 =
      { plant.controller with now := plant.controller.now + stepTicks }.admittedAll
          (Rig.mk plant.controller plant.transport).arrived ++
        [.served (Rig.mk plant.controller plant.transport).received.now.toNat
          (Rig.mk plant.controller plant.transport).received.due] := rfl
  rw [Driven, hmarks, harrived]
  rfl

/-- A batch that is not accepted brings fewer commands to the controller than it has. -/
theorem accepted_dispatched (plant : Plant θ) {event : PlantEvent} (hdriven : Driven plant event) :
    (BatchAccepted plant event →
      ((markedPlant θ).step plant event).2.flatMap PlantMark.acceptedCommands =
        ((markedPlant θ).step plant event).2.flatMap PlantMark.dispatchedCommands) ∧
    (¬ BatchAccepted plant event →
      (((markedPlant θ).step plant event).2.flatMap PlantMark.acceptedCommands).length <
        (((markedPlant θ).step plant event).2.flatMap PlantMark.dispatchedCommands).length) := by
  obtain ⟨-, hdispatched, haccepted⟩ := flatMap_marks plant event
  rw [hdispatched, haccepted]
  by_cases hdispatch : event = .dispatch
  · subst hdispatch
    have hbatch : dispatchedItems (runnerMarks plant .dispatch) =
        plant.runner.nextDispatchBatch.1 := dispatchedItems_dispatched _
    rw [hbatch, plant.runner.nextDispatchBatch_fst, WorkflowRunner.commands_schedule, commands,
      List.length_map]
    exact acceptedCommands_dispatch plant
  · have hnone : dispatchedItems (runnerMarks plant event) = [] := by
      cases event with
      | runner event => exact (runnerStep_of_ne_dispatch plant.runner hdriven.1).1
      | readStatus | controller => rfl
      | dispatch => exact absurd rfl hdispatch
    have hsent : sentMarks plant event = [] := by
      cases event with
      | runner | readStatus | controller => rfl
      | dispatch => exact absurd rfl hdispatch
    rw [hnone, hsent]
    exact ⟨fun _ => rfl, fun h => absurd (fun heq => absurd heq hdispatch) h⟩

/-- In a completed job both queues are empty, and every enqueued command was accepted exactly when
every batch was. -/
theorem completed_iff_batches_accepted (config : RunnerConfig) (ambientMilliC : Int64)
    (heaters : List HeaterCfg) (axes : List AxisCfg) (transport : SimTransport)
    {events : List PlantEvent} {plant : Plant θ} {marks : List PlantMark}
    (hdriven : (markedPlant θ).Along Driven
      ⟨.new config, .new (.new ambientMilliC heaters axes), transport⟩ events)
    (hrun : (markedPlant θ).run
      ⟨.new config, .new (.new ambientMilliC heaters axes), transport⟩ events = (plant, marks))
    (hcompleted : plant.runner.state = .completed) :
    (marks.flatMap PlantMark.acceptedCommands = marks.flatMap PlantMark.enqueuedCommands ∧
        plant.runner.jobQueue = [] ∧ plant.controller.queue = []) ↔
      (markedPlant θ).Along BatchAccepted
        ⟨.new config, .new (.new ambientMilliC heaters axes), transport⟩ events := by
  have hnew : Counted (⟨.new config, .new (.new ambientMilliC heaters axes), transport⟩ : Plant θ)
      [] :=
    ⟨⟨[], ⟨⟨[], rfl, rfl⟩, rfl, rfl, le_rfl⟩, rfl, rfl⟩, ⟨rfl, Nat.zero_le _⟩, fun _ _ => rfl,
      fun _ => ⟨rfl, rfl⟩⟩
  have hcounted : Counted plant marks := by
    have hkept := Machine.run_along (P := Counted) (C := Driven)
      (fun _ _ event h hdriven => h.step hdriven) hnew hdriven
    rwa [hrun] at hkept
  have hagree := Machine.flatMap_run_eq_iff_along (A := Driven) (C := BatchAccepted)
    (fun plant event hdriven => (accepted_dispatched plant hdriven).1)
    (fun plant event hdriven => (accepted_dispatched plant hdriven).2) hdriven
  rw [hrun] at hagree
  have hdispatched : marks.flatMap PlantMark.dispatchedCommands =
      marks.flatMap PlantMark.enqueuedCommands := by
    obtain ⟨earlier, ⟨⟨taken, hqueue, htaken⟩, -⟩, henqueued, hdispatched⟩ := hcounted.conserved
    rw [(hcounted.completed hcompleted).1, List.append_nil] at hqueue
    rw [← henqueued, ← hdispatched, hqueue, htaken]
  rw [and_iff_left (hcounted.completed hcompleted), ← hdispatched]
  exact hagree.2

/-- A job that takes two dispatches, with steps between them. -/
theorem completed_after_two_batches :
    let config : RunnerConfig := { RunnerConfig.default with maxBatchSize := 2 }
    let base : ControllerSessionStatus := ⟨"mcu1", 500000, 0, 0, 0, 0, 0, false, true⟩
    let events : List PlantEvent :=
      [.controller (.setQueueWindow ⟨1000, 1000000, by decide⟩),
        .runner (.enqueueBatch [⟨none, .home "x" 10000⟩, ⟨some 2000, .move "y" 40 20000⟩,
          ⟨none, .move "x" 10 10000⟩]),
        .readStatus base, .dispatch, .controller .step, .readStatus base, .dispatch,
        .controller .step, .controller .step, .readStatus base]
    (markedPlant ℤ).Along BatchAccepted
      ⟨.new config, .new (.new 25000 [] [⟨"x", 5000⟩, ⟨"y", 0⟩]), .new .default⟩ events := by
  intro config base events
  have hdriven : (markedPlant ℤ).Along Driven
      ⟨.new config, .new (.new 25000 [] [⟨"x", 5000⟩, ⟨"y", 0⟩]), .new .default⟩ events :=
    ⟨rfl, ⟨nofun, rfl⟩, trivial, trivial, driven_step (List.isEmpty_iff.mp (by decide +kernel)),
      trivial, trivial, driven_step (List.isEmpty_iff.mp (by decide +kernel)),
      driven_step (List.isEmpty_iff.mp (by decide +kernel)), trivial, trivial⟩
  have hcompleted : ((markedPlant ℤ).run
      ⟨.new config, .new (.new 25000 [] [⟨"x", 5000⟩, ⟨"y", 0⟩]), .new .default⟩
        events).1.runner.state = .completed := by
    decide +kernel
  apply (completed_iff_batches_accepted config 25000 [] [⟨"x", 5000⟩, ⟨"y", 0⟩] (.new .default)
    hdriven Prod.mk.eta.symm hcompleted).mp
  decide +kernel

/-- After a reset the controller rejects the homing, and the runner completes the job. -/
theorem completed_with_rejected_command :
    let events : List PlantEvent :=
      [.runner (.enqueue ⟨none, .home "x" 10000⟩),
        .readStatus ⟨"mcu1", 500000, 0, 0, 0, 0, 0, false, true⟩, .controller .reset, .dispatch,
        .readStatus ⟨"mcu1", 500000, 0, 0, 0, 0, 0, false, true⟩, .dispatch]
    let plant : Plant ℤ :=
      ⟨.new .default, .new (.new 25000 [] [⟨"x", 5000⟩]), .new .default⟩
    let outcome := (markedPlant ℤ).run plant events
    (markedPlant ℤ).Along Driven plant events ∧
      outcome.1.runner.state = .completed ∧
      outcome.2.flatMap PlantMark.enqueuedCommands = [.home "x" 10000] ∧
      outcome.2.flatMap PlantMark.acceptedCommands = [] := by
  intro events plant outcome
  have hreset (plant : Plant ℤ) : Driven plant (.controller .reset) := rfl
  have hdriven : (markedPlant ℤ).Along Driven plant events :=
    ⟨⟨nofun, rfl⟩, trivial, hreset _, trivial, trivial, trivial, trivial⟩
  refine ⟨hdriven, ?_, ?_, ?_⟩
  all_goals decide +kernel

end Dryer.Workflow
