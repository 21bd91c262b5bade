import Dryer.Workflow.Conservation

/-!
# The look-ahead horizon

How many commands the runner dispatches on one status of the controller, which is not read again
between the dispatches.
-/
namespace Dryer.Workflow
open Library ControlProtocol Daemon

/-- The fill of the controller up to which the runner dispatches. -/
def horizon (config : RunnerConfig) (status : ControllerSessionStatus) : ℕ :=
  min config.targetHorizon.toNat status.queueCapacity.toNat

/-- The dispatches after the first one on a status, which was given when `before` commands had
been dispatched, have a batch that still fits below the horizon. -/
def FitsHorizon (status : ControllerSessionStatus) (before : ℕ) (runner : WorkflowRunner)
    (event : RunnerEvent) : Prop :=
  event = .nextDispatchBatch →
    runner.state = .faulted ∨ status.heartbeatOk = false ∨ runner.totalDispatched = before ∨
      status.queueFill.toNat + (runner.totalDispatched - before) +
        min runner.config.maxBatchSize runner.jobQueue.length ≤ horizon runner.config status

/-- The runner still has the status, and counts what it has dispatched since. -/
structure OnStatus (config : RunnerConfig) (status : ControllerSessionStatus) (before : ℕ)
    (runner : WorkflowRunner) (marks : List RunnerMark) : Prop where
  config : runner.config = config
  status : runner.lastControllerStatus = some status
  dispatched : runner.totalDispatched = before + (dispatchedItems marks).length

variable {config : RunnerConfig} {status : ControllerSessionStatus} {before : ℕ}
  {runner : WorkflowRunner} {marks : List RunnerMark} {event : RunnerEvent}

theorem length_nextDispatchBatch (runner : WorkflowRunner) :
    runner.nextDispatchBatch.1.length = runner.batchCount := by
  rw [runner.nextDispatchBatch_fst, WorkflowRunner.length_schedule, length_take_batchCount]

theorem OnStatus.step (h : OnStatus config status before runner marks)
    (hevent : event.status? = none) :
    OnStatus config status before (runnerMachine.step runner event).1
      (marks ++ (runnerMachine.step runner event).2) := by
  have hmoves := runnerMoves_step runner event
  generalize (runnerMachine.step runner event).1 = next, (runnerMachine.step runner event).2 = m
    at hmoves ⊢
  obtain ⟨hconfig, hstatus, hdispatched⟩ := h
  cases hmoves with
  | refused | auditor => exact ⟨hconfig, hstatus, by simpa using hdispatched⟩
  | enqueued => exact ⟨hconfig, hstatus, by simpa using hdispatched⟩
  | status => cases hevent
  | dispatched batch _ hdispatches =>
    cases hdispatches with
    | nothing => exact ⟨hconfig, hstatus, by simpa using hdispatched⟩
    | batch count state hsize hroom hpos hlength =>
      refine ⟨hconfig, hstatus, ?_⟩
      simp only [dispatchedItems_append, dispatchedItems_dispatched, List.length_append,
        WorkflowRunner.length_schedule, List.length_take_of_le hlength]
      omega

/-- A call keeps to the horizon exactly when its batch does. -/
theorem OnStatus.fits_iff (h : OnStatus config status before runner marks)
    (hfits : status.queueFill.toNat + (dispatchedItems marks).length ≤ horizon config status) :
    status.queueFill.toNat +
        (dispatchedItems (marks ++ (runnerMachine.step runner event).2)).length ≤
          horizon config status ↔
      FitsHorizon status before runner event := by
  obtain ⟨rfl, hstatus, hdispatched⟩ := h
  by_cases hdispatch : event = .nextDispatchBatch
  · subst hdispatch
    have hroom : remainingHorizon runner.config (some status) =
        horizon runner.config status - status.queueFill.toNat := rfl
    simp only [FitsHorizon, true_imp_iff, runnerMachine, dispatchedItems_append,
      dispatchedItems_dispatched, List.length_append, length_nextDispatchBatch,
      WorkflowRunner.batchCount, hstatus, hroom, Option.any_some, Bool.not_eq_true', hdispatched]
    split
    · rename_i hlost
      apply iff_of_true hfits
      obtain hfaulted | hbeat := hlost
      · exact .inl hfaulted
      · exact .inr (.inl hbeat)
    · rename_i hbeat
      rw [not_or] at hbeat
      simp only [hbeat.1, hbeat.2, reduceCtorEq, false_or, Nat.min_assoc]
      omega
  · rw [dispatchedItems_append, (runnerStep_of_ne_dispatch runner hdispatch).1, List.append_nil]
    exact iff_of_true hfits fun hevent => absurd hevent hdispatch

/-- The fill that a status reports and the commands dispatched on it are within the horizon
together, exactly when every later dispatch on the status has a batch that fits. -/
theorem dispatched_within_horizon_iff (config : RunnerConfig) (earlier since : List RunnerEvent)
    (status : ControllerSessionStatus) (hsince : ∀ event ∈ since, event.status? = none)
    (hfill : status.queueFill.toNat ≤ horizon config status) :
    let runner := (runnerMachine.run (.new config) (earlier ++ [.updateControllerStatus status])).1
    status.queueFill.toNat + (dispatchedItems (runnerMachine.run runner since).2).length ≤
        horizon config status ↔
      runnerMachine.Along (FitsHorizon status runner.totalDispatched) runner since := by
  intro runner
  have hstatus : OnStatus config status runner.totalDispatched runner [] := by
    constructor
    · exact run_config config _
    · simp [runner, run_lastControllerStatus, lastStatus, RunnerEvent.status?]
    · rfl
  refine Machine.output_iff_along (Q := fun marks =>
      status.queueFill.toNat + (dispatchedItems marks).length ≤ horizon config status)
    (fun _ _ event h hevent => OnStatus.step h hevent)
    (fun _ _ event h _ hfits => OnStatus.fits_iff h hfits) (fun marks later hfits => ?_) hstatus
    hfill (Machine.along_of_forall_mem fun event hmem _ => hsince event hmem)
  rw [dispatchedItems_append, List.length_append] at hfits
  exact (Nat.add_le_add_left (Nat.le_add_right _ _) _).trans hfits

/-- Two dispatches on a status, of which the second one still fits. -/
theorem dispatched_within_horizon_two :
    let status : ControllerSessionStatus := ⟨"mcu1", 50000, 0, 16, 1, 1000, 90000, false, true⟩
    let runner := (runnerMachine.run (.new .default)
      ([.enqueueBatch (List.replicate 10 ⟨none, .heartbeat⟩)] ++
        [.updateControllerStatus status])).1
    status.queueFill.toNat + (dispatchedItems (runnerMachine.run runner
        [.nextDispatchBatch, .nextDispatchBatch]).2).length ≤ horizon .default status := by
  intro status runner
  exact (dispatched_within_horizon_iff .default
    [.enqueueBatch (List.replicate 10 ⟨none, .heartbeat⟩)] [.nextDispatchBatch, .nextDispatchBatch]
    status (by simp [RunnerEvent.status?]) (by decide)).mpr
    ⟨fun _ => .inr (.inr (.inl rfl)), fun _ => .inr (.inr (.inr (by decide +kernel))), trivial⟩

/-- The second of two dispatches on a status that reports a fill of 8 passes the horizon of 16. -/
theorem dispatched_past_horizon :
    let status : ControllerSessionStatus := ⟨"mcu1", 50000, 0, 16, 8, 1000, 90000, false, true⟩
    let runner := (runnerMachine.run (.new .default)
      ([.enqueueBatch (List.replicate 16 ⟨none, .heartbeat⟩)] ++
        [.updateControllerStatus status])).1
    let since : List RunnerEvent := [.nextDispatchBatch, .nextDispatchBatch]
    status.queueFill.toNat ≤ horizon .default status ∧
      ¬ status.queueFill.toNat + (dispatchedItems (runnerMachine.run runner since).2).length ≤
        horizon .default status := by
  decide +kernel

end Dryer.Workflow
