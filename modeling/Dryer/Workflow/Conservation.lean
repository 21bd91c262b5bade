import Dryer.Library.Lists
import Dryer.Library.Machine
import Dryer.Workflow.Runner
import Mathlib.Data.List.Induction

/-!
# Conservation of jobs

Every command that was enqueued has been dispatched in its turn or is still in the job queue,
over every sequence of calls of the runner.
-/
namespace Dryer.Workflow
open Library ControlProtocol Daemon Toolpath

inductive RunnerEvent where
  | setAuditor (limits : AuditLimits)
  | clearAuditor
  | enqueue (envelope : CommandEnvelope)
  | enqueueBatch (items : List CommandEnvelope)
  | updateControllerStatus (status : ControllerSessionStatus)
  | nextDispatchBatch

/-- What a call puts into the job queue, and what it takes out of it. -/
inductive RunnerMark where
  | enqueued (items : List CommandEnvelope)
  | dispatched (batch : List CommandEnvelope)

/-- The items of a call that succeeds. -/
def markEnqueued {α : Type} (result : Except RunnerError α) (items : List CommandEnvelope) :
    List RunnerMark :=
  match result with
  | .ok _ => [.enqueued items]
  | .error _ => []

def runnerMachine : Machine WorkflowRunner RunnerEvent RunnerMark where
  step runner
    | .setAuditor limits => (runner.setAuditor limits, [])
    | .clearAuditor => (runner.clearAuditor, [])
    | .enqueue envelope =>
      let (result, runner) := runner.enqueue envelope
      (runner, markEnqueued result [envelope])
    | .enqueueBatch items =>
      let (result, runner) := runner.enqueueBatch items
      (runner, markEnqueued result items)
    | .updateControllerStatus status => (runner.updateControllerStatus status, [])
    | .nextDispatchBatch =>
      let (batch, runner) := runner.nextDispatchBatch
      (runner, [.dispatched batch])

def enqueuedItems (marks : List RunnerMark) : List CommandEnvelope :=
  marks.flatMap fun mark =>
    match mark with
    | .enqueued items => items
    | .dispatched _ => []

def dispatchedItems (marks : List RunnerMark) : List CommandEnvelope :=
  marks.flatMap fun mark =>
    match mark with
    | .enqueued _ => []
    | .dispatched batch => batch

/-- The commands without their ticks. -/
def commands (items : List CommandEnvelope) : List Command := items.map (·.command)

def RunnerEvent.status? : RunnerEvent → Option ControllerSessionStatus
  | .updateControllerStatus status => some status
  | _ => none

/-- The commands that a call puts into the job queue when it succeeds. -/
def RunnerEvent.items : RunnerEvent → List CommandEnvelope
  | .enqueue envelope => [envelope]
  | .enqueueBatch items => items
  | _ => []

/-- The last status that the runner was given. -/
def lastStatus (events : List RunnerEvent) : Option ControllerSessionStatus :=
  (events.filterMap (·.status?)).getLast?

/-- The room below the target horizon, by a status. -/
def remainingHorizon (config : RunnerConfig) : Option ControllerSessionStatus → ℕ
  | none => config.targetHorizon.toNat
  | some status =>
    min config.targetHorizon.toNat status.queueCapacity.toNat - status.queueFill.toNat

/-- Nothing is lost, added or counted twice. -/
structure Conserved (runner : WorkflowRunner) (marks : List RunnerMark) : Prop where
  enqueued : ∃ taken, enqueuedItems marks = taken ++ runner.jobQueue ∧
    commands taken = commands (dispatchedItems marks)
  totalEnqueued : runner.totalEnqueued = (enqueuedItems marks).length
  totalDispatched : runner.totalDispatched = (dispatchedItems marks).length
  totalCompleted : runner.totalCompleted ≤ runner.totalDispatched

@[simp] theorem enqueuedItems_append (marks later : List RunnerMark) :
    enqueuedItems (marks ++ later) = enqueuedItems marks ++ enqueuedItems later :=
  List.flatMap_append

@[simp] theorem dispatchedItems_append (marks later : List RunnerMark) :
    dispatchedItems (marks ++ later) = dispatchedItems marks ++ dispatchedItems later :=
  List.flatMap_append

@[simp] theorem enqueuedItems_enqueued (items : List CommandEnvelope) :
    enqueuedItems [.enqueued items] = items := List.append_nil _

@[simp] theorem enqueuedItems_dispatched (batch : List CommandEnvelope) :
    enqueuedItems [.dispatched batch] = [] := rfl

@[simp] theorem dispatchedItems_enqueued (items : List CommandEnvelope) :
    dispatchedItems [.enqueued items] = [] := rfl

@[simp] theorem dispatchedItems_dispatched (batch : List CommandEnvelope) :
    dispatchedItems [.dispatched batch] = batch := List.append_nil _

@[simp] theorem commands_append (items later : List CommandEnvelope) :
    commands (items ++ later) = commands items ++ commands later :=
  List.map_append

/-! ## One call -/

namespace WorkflowRunner

variable {runner : WorkflowRunner}

theorem commands_schedule (marginUs : UInt64) (limits : DispatchLimits) (last : Option Tick)
    (items : List CommandEnvelope) :
    commands (schedule marginUs limits last items).1 = commands items := by
  induction items generalizing last with
  | nil => rfl
  | cons envelope rest ih => exact congrArg (envelope.command :: ·) (ih _)

theorem length_schedule (marginUs : UInt64) (limits : DispatchLimits) (last : Option Tick)
    (items : List CommandEnvelope) :
    (schedule marginUs limits last items).1.length = items.length := by
  have hlength := congrArg List.length (commands_schedule marginUs limits last items)
  simpa [commands] using hlength

theorem isSome_schedule (marginUs : UInt64) (limits : DispatchLimits) (last : Option Tick)
    (items : List CommandEnvelope) :
    ∀ scheduled ∈ (schedule marginUs limits last items).1, scheduled.executeAt.isSome := by
  induction items generalizing last with
  | nil => exact nofun
  | cons envelope rest ih => exact List.forall_mem_cons.mpr ⟨rfl, ih _⟩

end WorkflowRunner

/-- What a call of `nextDispatchBatch` does: nothing, or it takes commands off the front of the
queue and counts them. -/
inductive Dispatches (runner : WorkflowRunner) : List CommandEnvelope → WorkflowRunner → Prop
  | nothing (state : RunnerState) : Dispatches runner [] { runner with state }
  | batch (count : ℕ) (state : RunnerState) :
      count ≤ runner.config.maxBatchSize →
      count ≤ remainingHorizon runner.config runner.lastControllerStatus →
      0 < count → count ≤ runner.jobQueue.length →
      Dispatches runner
        (WorkflowRunner.schedule runner.config.scheduleLeadMarginUs runner.dispatchLimits
          runner.lastDispatchedTick (runner.jobQueue.take count)).1
        { runner with
          jobQueue := runner.jobQueue.drop count
          lastDispatchedTick :=
            (WorkflowRunner.schedule runner.config.scheduleLeadMarginUs runner.dispatchLimits
              runner.lastDispatchedTick (runner.jobQueue.take count)).2
          totalDispatched := runner.totalDispatched + count
          state }

/-- The headroom of the dispatch is the room below the target horizon. -/
theorem headroom_eq (runner : WorkflowRunner) :
    (min runner.config.targetHorizon runner.dispatchLimits.capacity).toNat -
        runner.dispatchLimits.fill.toNat =
      remainingHorizon runner.config runner.lastControllerStatus := by
  rw [U16.toNat_min]
  unfold WorkflowRunner.dispatchLimits remainingHorizon
  cases runner.lastControllerStatus with
  | none => simp
  | some status => rfl

/-- The size of the next batch: none for a runner in a fault, or when the heartbeat is lost. -/
def WorkflowRunner.batchCount (runner : WorkflowRunner) : ℕ :=
  if runner.state = .faulted ∨ runner.lastControllerStatus.any (!·.heartbeatOk) then 0
  else
    min (min (remainingHorizon runner.config runner.lastControllerStatus)
      runner.config.maxBatchSize) runner.jobQueue.length

namespace WorkflowRunner

theorem dispatch_fst (runner : WorkflowRunner) :
    runner.dispatch.1 = (schedule runner.config.scheduleLeadMarginUs runner.dispatchLimits
      runner.lastDispatchedTick (runner.jobQueue.take
        (min (min (remainingHorizon runner.config runner.lastControllerStatus)
          runner.config.maxBatchSize) runner.jobQueue.length))).1 := by
  have hroom := headroom_eq runner
  unfold dispatch
  simp only
  split
  · rename_i hfull
    rw [ge_iff_le, UInt16.le_iff_toNat_le] at hfull
    have hzero : remainingHorizon runner.config runner.lastControllerStatus = 0 := by omega
    simp [hzero, schedule]
  · rename_i hbelow
    rw [ge_iff_le, UInt16.not_le] at hbelow
    rw [UInt16.toNat_sub_of_le _ _ (UInt16.le_of_lt hbelow), hroom]
    split
    · rename_i hnone
      rw [hnone]
      rfl
    · rfl

theorem nextDispatchBatch_fst (runner : WorkflowRunner) :
    runner.nextDispatchBatch.1 =
      (schedule runner.config.scheduleLeadMarginUs runner.dispatchLimits
        runner.lastDispatchedTick (runner.jobQueue.take runner.batchCount)).1 := by
  unfold nextDispatchBatch batchCount
  by_cases hfaulted : runner.state = .faulted
  · simp [hfaulted, schedule]
  by_cases hempty : runner.jobQueue.isEmpty
  · rw [if_neg hfaulted, if_pos hempty, List.isEmpty_iff.mp hempty, List.take_nil]
    rfl
  rw [if_neg hfaulted, if_neg hempty]
  by_cases hbeat : runner.lastControllerStatus.any (!·.heartbeatOk)
  · simp [hbeat, schedule]
  · rw [if_neg hbeat, if_neg (not_or.mpr ⟨hfaulted, hbeat⟩), dispatch_fst]

end WorkflowRunner

theorem dispatches_dispatch (runner : WorkflowRunner) :
    Dispatches runner runner.dispatch.1 runner.dispatch.2 := by
  have hroom := headroom_eq runner
  unfold WorkflowRunner.dispatch
  simp only
  split
  · exact .nothing _
  rename_i hbelow
  rw [ge_iff_le, UInt16.not_le] at hbelow
  have hheadroom : (min runner.config.targetHorizon runner.dispatchLimits.capacity -
      runner.dispatchLimits.fill).toNat =
        remainingHorizon runner.config runner.lastControllerStatus := by
    rw [UInt16.toNat_sub_of_le _ _ (UInt16.le_of_lt hbelow), hroom]
  rw [hheadroom]
  generalize hcount : min (min (remainingHorizon runner.config runner.lastControllerStatus)
    runner.config.maxBatchSize) runner.jobQueue.length = count
  split
  · exact .nothing _
  rename_i hsome
  rw [WorkflowRunner.length_schedule, List.length_take_of_le (by omega)]
  exact .batch count _ (by omega) (by omega) (by omega) (by omega)

theorem dispatches_nextDispatchBatch (runner : WorkflowRunner) :
    Dispatches runner runner.nextDispatchBatch.1 runner.nextDispatchBatch.2 := by
  unfold WorkflowRunner.nextDispatchBatch
  split
  · exact .nothing _
  split
  · exact .nothing _
  split
  · exact .nothing _
  exact dispatches_dispatch runner

theorem length_take_batchCount (runner : WorkflowRunner) :
    (runner.jobQueue.take runner.batchCount).length = runner.batchCount := by
  rw [List.length_take_of_le]
  unfold WorkflowRunner.batchCount
  split
  · exact Nat.zero_le _
  · exact min_le_right _ _

/-- What a call of `nextDispatchBatch` leaves behind, but for the state. -/
theorem nextDispatchBatch_snd (runner : WorkflowRunner) :
    ∃ state, runner.nextDispatchBatch.2 =
      { runner with
        jobQueue := runner.jobQueue.drop runner.batchCount
        lastDispatchedTick := (WorkflowRunner.schedule runner.config.scheduleLeadMarginUs
          runner.dispatchLimits runner.lastDispatchedTick
          (runner.jobQueue.take runner.batchCount)).2
        totalDispatched := runner.totalDispatched + runner.batchCount
        state } := by
  have hdispatches := dispatches_nextDispatchBatch runner
  have hlength := congrArg List.length runner.nextDispatchBatch_fst
  rw [WorkflowRunner.length_schedule, length_take_batchCount] at hlength
  generalize runner.nextDispatchBatch.1 = batch, runner.nextDispatchBatch.2 = next
    at hdispatches hlength
  cases hdispatches with
  | nothing state =>
    rw [← show 0 = runner.batchCount from hlength]
    exact ⟨state, rfl⟩
  | batch count state hsize hroom hpos hcount =>
    rw [WorkflowRunner.length_schedule, List.length_take_of_le hcount] at hlength
    rw [hlength]
    exact ⟨state, rfl⟩

/-- What a call of the runner does. -/
inductive RunnerMoves (runner : WorkflowRunner) : RunnerEvent → WorkflowRunner → List RunnerMark →
    Prop
  | refused (event : RunnerEvent) : event.status? = none → RunnerMoves runner event runner []
  | auditor (event : RunnerEvent) (auditor : Option ToolpathAuditor) : event.status? = none →
      RunnerMoves runner event { runner with auditor } []
  | enqueued (event : RunnerEvent) (state : RunnerState) : event.status? = none →
      RunnerMoves runner event { runner with
        jobQueue := runner.jobQueue ++ event.items
        totalEnqueued := runner.totalEnqueued + event.items.length
        state } [.enqueued event.items]
  | status (status : ControllerSessionStatus) :
      RunnerMoves runner (.updateControllerStatus status) (runner.updateControllerStatus status) []
  | dispatched (batch : List CommandEnvelope) (later : WorkflowRunner) :
      Dispatches runner batch later →
      RunnerMoves runner .nextDispatchBatch later [.dispatched batch]

theorem runnerMoves_step (runner : WorkflowRunner) (event : RunnerEvent) :
    RunnerMoves runner event (runnerMachine.step runner event).1
      (runnerMachine.step runner event).2 := by
  cases event with
  | setAuditor limits => exact .auditor _ _ rfl
  | clearAuditor => exact .auditor _ _ rfl
  | enqueue envelope =>
    simp only [runnerMachine, WorkflowRunner.enqueue]
    split
    · exact .refused _ rfl
    · exact .enqueued (.enqueue envelope) _ rfl
  | enqueueBatch items =>
    simp only [runnerMachine, WorkflowRunner.enqueueBatch]
    split
    · rename_i hempty
      obtain rfl := List.isEmpty_iff.mp hempty
      have henqueued : RunnerMoves runner (.enqueueBatch [])
          { runner with
            jobQueue := runner.jobQueue ++ []
            totalEnqueued := runner.totalEnqueued + 0 } [.enqueued []] :=
        .enqueued (.enqueueBatch []) runner.state rfl
      rwa [List.append_nil] at henqueued
    split
    · exact .refused _ rfl
    · exact .enqueued (.enqueueBatch items) _ rfl
  | updateControllerStatus status => exact .status status
  | nextDispatchBatch => exact .dispatched _ _ (dispatches_nextDispatchBatch runner)

/-- Only a dispatch takes commands out of the queue and changes the last tick. -/
theorem runnerStep_of_ne_dispatch (runner : WorkflowRunner) {event : RunnerEvent}
    (h : event ≠ .nextDispatchBatch) :
    dispatchedItems (runnerMachine.step runner event).2 = [] ∧
      (runnerMachine.step runner event).1.lastDispatchedTick = runner.lastDispatchedTick := by
  have hmoves := runnerMoves_step runner event
  generalize (runnerMachine.step runner event).1 = next, (runnerMachine.step runner event).2 = m
    at hmoves ⊢
  cases hmoves with
  | refused | auditor | enqueued | status => exact ⟨rfl, rfl⟩
  | dispatched => exact absurd rfl h

/-! ## Runs -/

theorem Conserved.step {runner : WorkflowRunner} {marks : List RunnerMark}
    (h : Conserved runner marks) (event : RunnerEvent) :
    Conserved (runnerMachine.step runner event).1
      (marks ++ (runnerMachine.step runner event).2) := by
  have hmoves := runnerMoves_step runner event
  generalize (runnerMachine.step runner event).1 = later,
    (runnerMachine.step runner event).2 = m at hmoves ⊢
  obtain ⟨⟨taken, hqueue, htaken⟩, henqueued, hdispatched, hcompleted⟩ := h
  cases hmoves with
  | refused | auditor =>
    rw [List.append_nil]
    exact ⟨⟨taken, hqueue, htaken⟩, henqueued, hdispatched, hcompleted⟩
  | enqueued _ state =>
    refine ⟨⟨taken, ?_, ?_⟩, ?_, ?_, hcompleted⟩
    · simp [hqueue]
    · simp [htaken]
    · simp [henqueued]
    · simp [hdispatched]
  | status status =>
    rw [List.append_nil]
    exact ⟨⟨taken, hqueue, htaken⟩, henqueued, hdispatched, Nat.sub_le _ _⟩
  | dispatched batch later hdispatches =>
    cases hdispatches with
    | nothing state =>
      refine ⟨⟨taken, ?_, ?_⟩, ?_, ?_, hcompleted⟩
      · simp [hqueue]
      · simp [htaken]
      · simp [henqueued]
      · simp [hdispatched]
    | batch count state hsize hroom hpos hlength =>
      have htake : (WorkflowRunner.schedule runner.config.scheduleLeadMarginUs
          runner.dispatchLimits runner.lastDispatchedTick (runner.jobQueue.take count)).1.length =
            count := by
        rw [WorkflowRunner.length_schedule, List.length_take_of_le hlength]
      have hcommands := WorkflowRunner.commands_schedule runner.config.scheduleLeadMarginUs
        runner.dispatchLimits runner.lastDispatchedTick (runner.jobQueue.take count)
      refine ⟨⟨taken ++ runner.jobQueue.take count, ?_, ?_⟩, ?_, ?_, ?_⟩
      · simp [hqueue]
      · simp [htaken, hcommands]
      · simp [henqueued]
      · simp [hdispatched, htake]
      · exact hcompleted.trans (Nat.le_add_right _ _)

theorem runnerStep_config (runner : WorkflowRunner) (event : RunnerEvent) :
    (runnerMachine.step runner event).1.config = runner.config := by
  have hmoves := runnerMoves_step runner event
  generalize (runnerMachine.step runner event).1 = next, (runnerMachine.step runner event).2 = m
    at hmoves ⊢
  cases hmoves with
  | refused | auditor | status | enqueued => rfl
  | dispatched batch _ hdispatches => cases hdispatches <;> rfl

theorem run_config (config : RunnerConfig) (events : List RunnerEvent) :
    (runnerMachine.run (.new config) events).1.config = config :=
  Machine.run_invariant (P := fun runner _ => runner.config = config)
    (fun runner _ event h => (runnerStep_config runner event).trans h) rfl events

/-- The runner keeps the last status that it was given. -/
theorem run_lastControllerStatus (config : RunnerConfig) (events : List RunnerEvent) :
    (runnerMachine.run (.new config) events).1.lastControllerStatus = lastStatus events := by
  induction events using List.reverseRecOn with
  | nil => rfl
  | append_singleton events event ih =>
    rw [Machine.run_append]
    simp only [Machine.run_cons, Machine.run_nil]
    have hmoves := runnerMoves_step (runnerMachine.run (.new config) events).1 event
    generalize (runnerMachine.step (runnerMachine.run (.new config) events).1 event).1 = later,
      (runnerMachine.step (runnerMachine.run (.new config) events).1 event).2 = m at hmoves ⊢
    rw [lastStatus, getLast?_filterMap_append]
    cases hmoves with
    | refused _ hevent | auditor _ _ hevent | enqueued _ _ hevent =>
      rw [hevent]
      exact ih
    | status status => rfl
    | dispatched batch _ hdispatches =>
      cases hdispatches with
      | nothing | batch => exact ih

theorem conserved_run (config : RunnerConfig) (events : List RunnerEvent) :
    Conserved (runnerMachine.run (.new config) events).1
      (runnerMachine.run (.new config) events).2 :=
  Machine.run_invariant (fun _ _ event h => h.step event)
    (⟨⟨[], rfl, rfl⟩, rfl, rfl, le_rfl⟩ : Conserved (.new config) []) events

/-- Over every sequence of calls: the dispatched commands followed by the job queue are the
enqueued ones, the counters agree, and no batch is larger than the configuration and the last
status allow. -/
theorem runner_conserves (config : RunnerConfig) {events : List RunnerEvent}
    {runner : WorkflowRunner} {marks : List RunnerMark}
    (hrun : runnerMachine.run (.new config) events = (runner, marks)) :
    commands (dispatchedItems marks) ++ commands runner.jobQueue =
        commands (enqueuedItems marks) ∧
      runner.jobQueue <:+ enqueuedItems marks ∧
      runner.totalEnqueued = runner.totalDispatched + runner.jobQueue.length ∧
      runner.totalCompleted ≤ runner.totalDispatched ∧
      ∀ before later, events = before ++ .nextDispatchBatch :: later →
        (runnerMachine.run (.new config) before).1.nextDispatchBatch.1.length ≤
          min config.maxBatchSize (remainingHorizon config (lastStatus before)) := by
  have hconserved : Conserved runner marks := by
    have hkept := conserved_run config events
    rwa [hrun] at hkept
  obtain ⟨⟨taken, hqueue, htaken⟩, henqueued, hdispatched, hcompleted⟩ := hconserved
  have hlength := congrArg List.length htaken
  refine ⟨?_, ⟨taken, hqueue.symm⟩, ?_, hcompleted, fun before later _ => ?_⟩
  · rw [← htaken, hqueue, commands, commands, commands, List.map_append]
  · simp only [commands, List.length_map] at hlength
    rw [henqueued, hdispatched, hqueue, List.length_append, hlength]
  · have hconfig := run_config config before
    have hstatus := run_lastControllerStatus config before
    have hdispatches := dispatches_nextDispatchBatch (runnerMachine.run (.new config) before).1
    generalize (runnerMachine.run (.new config) before).1.nextDispatchBatch.1 = batch,
      (runnerMachine.run (.new config) before).1.nextDispatchBatch.2 = next at hdispatches
    rw [← hconfig, ← hstatus]
    cases hdispatches with
    | nothing => exact Nat.zero_le _
    | batch count state hsize hroom =>
      rw [WorkflowRunner.length_schedule]
      exact (List.length_take_le _ _).trans (le_min hsize hroom)

/-- Two commands of which one is dispatched, as the batch size is 1. -/
theorem runner_conserves_one_batch :
    let events : List RunnerEvent :=
      [.enqueueBatch [⟨none, .home "x" 10000⟩, ⟨some 5000, .heartbeat⟩], .nextDispatchBatch]
    let outcome := runnerMachine.run (.new { RunnerConfig.default with maxBatchSize := 1 }) events
    commands (dispatchedItems outcome.2) ++ commands outcome.1.jobQueue =
        [.home "x" 10000, .heartbeat] ∧
      outcome.1.totalEnqueued = 2 ∧ outcome.1.totalDispatched = 1 := by
  intro events outcome
  have hconserves := @runner_conserves { RunnerConfig.default with maxBatchSize := 1 } events _ _
    Prod.mk.eta.symm
  exact ⟨hconserves.1.trans (by decide +kernel), by decide +kernel, by decide +kernel⟩

end Dryer.Workflow
