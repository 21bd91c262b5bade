import Dryer.Workflow.Conservation

/-!
# Audits of a job that comes in pieces

The runner audits the commands of each call by themselves, as if every axis were at position 0
before them. Whether the whole job passes depends on where the earlier calls left the axes.
-/
namespace Dryer.Workflow
open Library ControlProtocol Toolpath

/-- A call that enqueues commands. -/
def RunnerEvent.Enqueues : RunnerEvent → Prop
  | .enqueue _ => True
  | .enqueueBatch _ => True
  | _ => False

/-- Until the commands have homed an axis, its moves are within the limits from where the job
before them left it. -/
def StaysWithin (limits : AuditLimits) (job items : List Command) : Prop :=
  ∀ before axis distanceUm rateUmS after, items = before ++ .move axis distanceUm rateUmS :: after →
    (∀ homingRate, .home axis homingRate ∉ before) → ∀ limit, limits.axes[axis]? = some limit →
      limit.Contains (travel axis (job ++ before ++ [.move axis distanceUm rateUmS]))

/-- The commands of a call that passes its audit also stay within the limits after the commands
that the queue holds. -/
def ContinuesWithin (limits : AuditLimits) (runner : WorkflowRunner) (event : RunnerEvent) : Prop :=
  runner.auditFailure (commands event.items) = none →
    StaysWithin limits (commands runner.jobQueue) (commands event.items)

/-- The runner has its first auditor, and everything that was enqueued is in the queue. -/
structure Audited (limits : AuditLimits) (runner : WorkflowRunner) (marks : List RunnerMark) :
    Prop where
  auditor : runner.auditor = some (.new limits)
  queue : runner.jobQueue = enqueuedItems marks

variable {limits : AuditLimits} {runner : WorkflowRunner} {marks : List RunnerMark}
  {event : RunnerEvent}

/-! ## Positions -/

/-- A homing makes the position of the axis before it irrelevant. -/
theorem foldl_travelBy_of_home {name : String} {job : List Command} {rateUmS : UInt64}
    (h : .home name rateUmS ∈ job) (p q : Int64) :
    job.foldl (travelBy name) p = job.foldl (travelBy name) q := by
  obtain ⟨before, after, rfl⟩ := List.append_of_mem h
  simp [travelBy]

theorem travel_append_of_home {name : String} {job : List Command} {rateUmS : UInt64}
    (h : .home name rateUmS ∈ job) (earlier : List Command) :
    travel name (earlier ++ job) = travel name job := by
  rw [travel, List.foldl_append]
  exact foldl_travelBy_of_home h _ _

/-- Commands that pass by themselves pass after a job exactly when they stay within the limits
from where the job left the axes. -/
theorem passed_append_iff_staysWithin {job items : List Command}
    (h : ((ToolpathAuditor.new limits).audit items).passed) :
    ((ToolpathAuditor.new limits).audit (job ++ items)).passed ↔
      ((ToolpathAuditor.new limits).audit job).passed ∧ StaysWithin limits job items := by
  rw [ToolpathAuditor.passed_append_iff]
  apply and_congr_right
  intro _
  have halone := (@ToolpathAuditor.passed_append_iff (.new limits) [] items).mp h
  have hmoved (axis : String) (distanceUm : Int64) (rateUmS : UInt64) (earlier : List Command) :
      travel axis (earlier ++ [.move axis distanceUm rateUmS]) =
        I64.saturatingAdd (travel axis earlier) distanceUm := by
    simp [travel, travelBy]
  constructor
  · rintro hall before axis distanceUm rateUmS after heq - limit hlimit
    rw [hmoved]
    exact (hall before _ after heq).2 limit hlimit
  · intro hwithin before command after heq
    have hpasses := halone.2 before command after heq
    cases command with
    | heartbeat | setHeaterTarget | home => exact hpasses
    | move axis distanceUm rateUmS =>
      refine ⟨hpasses.1, ?_⟩
      intro limit hlimit
      by_cases hhomed : ∃ homingRate, Command.home axis homingRate ∈ before
      · obtain ⟨homingRate, hhomed⟩ := hhomed
        have hinside := hpasses.2 limit hlimit
        beta_reduce at hinside ⊢
        rwa [travel_append_of_home hhomed, ← travel_append_of_home hhomed []]
      · beta_reduce
        rw [← hmoved axis distanceUm rateUmS]
        exact hwithin before axis distanceUm rateUmS after heq (not_exists.mp hhomed) limit hlimit

/-! ## One call -/

/-- A call that enqueues is refused by its audit, or passes it and enqueues its commands. -/
theorem enqueue_cases (runner : WorkflowRunner) (h : event.Enqueues) :
    (runner.auditFailure (commands event.items) ≠ none ∧
        (runnerMachine.step runner event).1 = runner ∧
        enqueuedItems (runnerMachine.step runner event).2 = []) ∨
      (runner.auditFailure (commands event.items) = none ∧
        (runnerMachine.step runner event).1.auditor = runner.auditor ∧
        (runnerMachine.step runner event).1.jobQueue = runner.jobQueue ++ event.items ∧
        enqueuedItems (runnerMachine.step runner event).2 = event.items) := by
  cases event with
  | enqueue envelope =>
    simp only [runnerMachine, WorkflowRunner.enqueue, RunnerEvent.items, commands, List.map_cons,
      List.map_nil]
    cases runner.auditFailure [envelope.command] with
    | some report => exact .inl ⟨by simp, rfl, rfl⟩
    | none => exact .inr ⟨rfl, rfl, rfl, rfl⟩
  | enqueueBatch items =>
    simp only [runnerMachine, WorkflowRunner.enqueueBatch, RunnerEvent.items, commands]
    cases items with
    | nil =>
      refine .inr ⟨?_, rfl, (List.append_nil _).symm, rfl⟩
      cases hauditor : runner.auditor with
      | none => simp [WorkflowRunner.auditFailure, hauditor]
      | some auditor =>
        simp [WorkflowRunner.auditFailure, hauditor, ToolpathAuditor.audit,
          ToolpathAuditor.auditFrom]
    | cons first rest =>
      rw [List.isEmpty_cons, if_neg Bool.false_ne_true]
      cases runner.auditFailure ((first :: rest).map (·.command)) with
      | some report => exact .inl ⟨by simp, rfl, rfl⟩
      | none => exact .inr ⟨rfl, rfl, rfl, List.append_nil _⟩
  | setAuditor | clearAuditor | updateControllerStatus | nextDispatchBatch => exact h.elim

theorem Audited.step (h : Audited limits runner marks) (hevent : event.Enqueues) :
    Audited limits (runnerMachine.step runner event).1
      (marks ++ (runnerMachine.step runner event).2) := by
  obtain ⟨-, hnext, hmarks⟩ | ⟨-, hauditor, hqueue, hmarks⟩ := enqueue_cases runner hevent
  · rw [hnext]
    exact ⟨h.auditor, by rw [enqueuedItems_append, hmarks, List.append_nil, h.queue]⟩
  · refine ⟨hauditor.trans h.auditor, ?_⟩
    rw [enqueuedItems_append, hmarks, hqueue, h.queue]

/-- A call keeps the job passing exactly when its commands continue within the limits. -/
theorem Audited.passed_step_iff (h : Audited limits runner marks) (hevent : event.Enqueues)
    (hpassed : ((ToolpathAuditor.new limits).audit (commands (enqueuedItems marks))).passed) :
    ((ToolpathAuditor.new limits).audit
        (commands (enqueuedItems (marks ++ (runnerMachine.step runner event).2)))).passed ↔
      ContinuesWithin limits runner event := by
  rw [enqueuedItems_append, ContinuesWithin]
  obtain ⟨haudit, -, hmarks⟩ | ⟨haudit, -, -, hmarks⟩ := enqueue_cases runner hevent
  · rw [hmarks, List.append_nil]
    exact iff_of_true hpassed fun hnone => absurd hnone haudit
  · have halone : ((ToolpathAuditor.new limits).audit (commands event.items)).passed := by
      rw [WorkflowRunner.auditFailure, h.auditor] at haudit
      simpa using haudit
    rw [hmarks, commands_append, passed_append_iff_staysWithin halone, and_iff_right hpassed,
      h.queue]
    exact (imp_iff_right haudit).symm

/-! ## Runs -/

/-- The commands that were enqueued pass the audit as one job, exactly when every call that was
not refused continued within the limits. -/
theorem audits_compose_iff (config : RunnerConfig) (limits : AuditLimits)
    {events : List RunnerEvent} (hevents : ∀ event ∈ events, event.Enqueues) :
    ((ToolpathAuditor.new limits).audit (commands (enqueuedItems
        (runnerMachine.run (.withAuditor config limits) events).2))).passed ↔
      runnerMachine.Along (ContinuesWithin limits) (.withAuditor config limits) events := by
  have hnew : Audited limits (.withAuditor config limits) [] := ⟨rfl, rfl⟩
  refine Machine.output_iff_along (Q := fun marks =>
      ((ToolpathAuditor.new limits).audit (commands (enqueuedItems marks))).passed)
    (fun _ _ _ h hevent => Audited.step h hevent)
    (fun _ _ _ h hevent hpassed => h.passed_step_iff hevent hpassed) (fun marks later h => ?_) hnew
    rfl (Machine.along_of_forall_mem fun event hmem _ => hevents event hmem)
  rw [enqueuedItems_append, commands_append] at h
  exact (ToolpathAuditor.passed_append_iff.mp h).1

/-- A homing and a move in one call, and a move back in another. -/
theorem audits_compose_two_calls :
    let limits : AuditLimits :=
      { axes := (∅ : Std.TreeMap String AxisLimit).insert "x" ⟨0, 100000⟩
        maxFeedRateUmS := 50000
        heaterCeilingsMilliC := ∅ }
    let events : List RunnerEvent :=
      [.enqueueBatch [⟨none, .home "x" 10000⟩, ⟨none, .move "x" 60000 10000⟩],
        .enqueue ⟨none, .move "x" 40000 10000⟩]
    runnerMachine.Along (ContinuesWithin limits) (.withAuditor .default limits) events := by
  intro limits events
  refine (audits_compose_iff .default limits ?_).mp (by decide +kernel)
  exact List.forall_mem_cons.mpr ⟨trivial, List.forall_mem_singleton.mpr trivial⟩

/-- Two moves of 60 mm on an axis of 100 mm pass one after the other, but not as one job. -/
theorem audits_do_not_compose :
    let limits : AuditLimits :=
      { axes := (∅ : Std.TreeMap String AxisLimit).insert "x" ⟨0, 100000⟩
        maxFeedRateUmS := 50000
        heaterCeilingsMilliC := ∅ }
    let events : List RunnerEvent :=
      [.enqueue ⟨none, .move "x" 60000 10000⟩, .enqueue ⟨none, .move "x" 60000 10000⟩]
    let accepted := enqueuedItems (runnerMachine.run (.withAuditor .default limits) events).2
    accepted.length = 2 ∧
      ¬ ((ToolpathAuditor.new limits).audit (commands accepted)).passed := by
  decide +kernel

end Dryer.Workflow
