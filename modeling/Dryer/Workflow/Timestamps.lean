import Dryer.Library.Agenda
import Dryer.Workflow.Pacing

/-!
# The ticks of dispatched commands

Whether the ticks that a runner assigns lie in the window of its last status, and whether they
keep the order of the job from batch to batch.
-/
namespace Dryer.Workflow
open Library ControlProtocol ControlClient Daemon

variable {marginUs : UInt64} {limits : WorkflowRunner.DispatchLimits} {last : Option Tick}
  {items : List CommandEnvelope}

/-! ## The window -/

/-- Every command of a batch is in the window of the last status, exactly when the pace of the
batch keeps the commands without a requested tick in it. -/
theorem dispatched_in_window_iff {runner : WorkflowRunner} {status : ControllerSessionStatus}
    (hstatus : runner.lastControllerStatus = some status)
    (hknown : status.latestAcceptedTick > 0)
    (hordered : status.earliestAcceptedTick ≤ status.latestAcceptedTick) :
    (∀ envelope ∈ runner.nextDispatchBatch.1, ∃ tick, envelope.executeAt = some tick ∧
      status.earliestAcceptedTick ≤ tick ∧ tick ≤ status.latestAcceptedTick) ↔
      Paced runner.config.scheduleLeadMarginUs runner.dispatchLimits runner.lastDispatchedTick
        (runner.jobQueue.take runner.batchCount) := by
  have hlimits : runner.dispatchLimits.earliestAccepted = status.earliestAcceptedTick ∧
      runner.dispatchLimits.latestAccepted = status.latestAcceptedTick := by
    unfold WorkflowRunner.dispatchLimits
    rw [hstatus]
    exact ⟨rfl, rfl⟩
  rw [← hlimits.2] at hknown hordered
  rw [← hlimits.1] at hordered
  rw [runner.nextDispatchBatch_fst, ← schedule_latest_iff hknown, ← hlimits.1, ← hlimits.2]
  apply forall₂_congr
  intro envelope henvelope
  obtain ⟨tick, htick, hearliest⟩ := earliest_le_schedule hordered _ _ envelope henvelope
  simp [htick, hearliest]

/-- Three commands 1000 ticks apart from the beginning of a window. -/
theorem dispatched_in_window_three :
    let status : ControllerSessionStatus := ⟨"mcu1", 50000, 0, 16, 0, 1000, 10000, false, true⟩
    let runner : WorkflowRunner := { WorkflowRunner.new .default with
      jobQueue := [⟨none, .home "x" 10000⟩, ⟨some 9000, .move "x" 500 10000⟩,
        ⟨none, .move "x" 400 10000⟩]
      lastControllerStatus := some status }
    ∀ envelope ∈ runner.nextDispatchBatch.1, ∃ tick, envelope.executeAt = some tick ∧
      status.earliestAcceptedTick ≤ tick ∧ tick ≤ status.latestAcceptedTick := by
  intro status runner
  exact (@dispatched_in_window_iff runner status rfl (by decide) (by decide)).mpr
    ⟨fun _ => by decide, nofun, fun _ => by decide, trivial⟩

/-- The second of two commands without a requested tick is dispatched behind the window. -/
theorem dispatched_behind_window :
    let status : ControllerSessionStatus := ⟨"mcu1", 50000, 0, 16, 0, 1000, 1500, false, true⟩
    let runner : WorkflowRunner := { WorkflowRunner.new .default with
      jobQueue := [⟨none, .home "x" 10000⟩, ⟨none, .move "x" 500 10000⟩]
      totalEnqueued := 2
      lastControllerStatus := some status
      state := .running }
    runner.nextDispatchBatch.1 =
        [⟨some 1000, .home "x" 10000⟩, ⟨some 2000, .move "x" 500 10000⟩] ∧
      ¬ ∀ envelope ∈ runner.nextDispatchBatch.1, ∃ tick, envelope.executeAt = some tick ∧
        status.earliestAcceptedTick ≤ tick ∧ tick ≤ status.latestAcceptedTick := by
  intro status runner
  have hbatch : runner.nextDispatchBatch.1 =
      [⟨some 1000, .home "x" 10000⟩, ⟨some 2000, .move "x" 500 10000⟩] := by decide +kernel
  refine ⟨hbatch, ?_⟩
  intro hall
  rw [hbatch] at hall
  obtain ⟨tick, htick, -, hlatest⟩ := hall _ (.tail _ (.head _))
  obtain rfl := Option.some.inj htick
  exact absurd hlatest (by decide)

/-! ## The order -/

/-- The tick of a dispatched command. -/
def dispatchTick (envelope : CommandEnvelope) : ℕ := envelope.executeAt.elim 0 UInt64.toNat

/-- No command has an earlier tick than one that was dispatched before it. -/
def InTickOrder (items : List CommandEnvelope) : Prop :=
  items.Pairwise fun a b => dispatchTick a ≤ dispatchTick b

/-- The commands as a controller executes them: by their ticks, and at one tick by arrival. -/
def executionOrder (items : List CommandEnvelope) : List CommandEnvelope :=
  items.foldl (fun queue envelope => Agenda.insertByDue dispatchTick envelope queue) []

/-- The pace of a command, but a requested tick is held to a known latest tick. -/
def heldTick (marginUs : UInt64) (limits : WorkflowRunner.DispatchLimits) (last : Option Tick)
    (envelope : CommandEnvelope) : Tick :=
  if envelope.executeAt.isSome ∧ limits.latestAccepted > 0 then
    min (pacedTick marginUs limits last envelope) limits.latestAccepted
  else pacedTick marginUs limits last envelope

/-- Whatever comes before a requested tick is in the window: the last tick, and what the pace of
the batch has. -/
def OrderKept (marginUs : UInt64) (limits : WorkflowRunner.DispatchLimits) (last : Option Tick)
    (items : List CommandEnvelope) : Prop :=
  limits.latestAccepted > 0 →
    ∀ before envelope after, items = before ++ envelope :: after → envelope.executeAt.isSome →
      (∀ tick, last = some tick → tick ≤ limits.latestAccepted) ∧
        Paced marginUs limits last before

/-- A dispatch keeps the order of the ticks. -/
def KeepsOrder (runner : WorkflowRunner) (event : RunnerEvent) : Prop :=
  event = .nextDispatchBatch →
    OrderKept runner.config.scheduleLeadMarginUs runner.dispatchLimits runner.lastDispatchedTick
      (runner.jobQueue.take runner.batchCount)

theorem targetTick_eq_heldTick (last : Option Tick) (envelope : CommandEnvelope) :
    WorkflowRunner.targetTick marginUs limits last envelope.executeAt =
      heldTick marginUs limits last envelope := by
  cases hat : envelope.executeAt with
  | none =>
    rw [← hat, targetTick_of_none hat, heldTick, if_neg (by simp [hat])]
  | some requested =>
    simp only [WorkflowRunner.targetTick, heldTick, pacedTick, hat, Option.isSome_some, true_and,
      Option.getD_some]
    by_cases hknown : limits.latestAccepted > 0
    · rw [if_pos hknown, ← UInt64.toNat_inj, U64.toNat_min]
      split
      · rename_i hlate
        have hlt := UInt64.lt_iff_toNat_lt.mp hlate.2
        omega
      · rename_i hin
        have hle := UInt64.le_iff_toNat_le.mp (UInt64.not_lt.mp fun hlt => hin ⟨hknown, hlt⟩)
        omega
    · rw [if_neg hknown, if_neg fun h => hknown h.1]

theorem le_pacedTick {tick : Tick} (envelope : CommandEnvelope) :
    tick.toNat ≤ (pacedTick marginUs limits (some tick) envelope).toNat := by
  have htick := tick.toNat_lt
  rw [pacedTick, toNat_afterLast, Option.elim_some]
  omega

theorem le_heldTick_iff (last : Option Tick) (envelope : CommandEnvelope) :
    (∀ tick, last = some tick → tick.toNat ≤ (heldTick marginUs limits last envelope).toNat) ↔
      (limits.latestAccepted > 0 → envelope.executeAt.isSome →
        ∀ tick, last = some tick → tick ≤ limits.latestAccepted) := by
  have hpaced : ∀ tick, last = some tick →
      tick.toNat ≤ (pacedTick marginUs limits last envelope).toNat := by
    rintro tick rfl
    exact le_pacedTick envelope
  by_cases hheld : envelope.executeAt.isSome ∧ limits.latestAccepted > 0
  · rw [heldTick, if_pos hheld]
    simp only [hheld.1, hheld.2, true_imp_iff, U64.toNat_min, le_min_iff, UInt64.le_iff_toNat_le]
    exact forall₂_congr fun tick htick => and_iff_right (hpaced tick htick)
  · rw [heldTick, if_neg hheld]
    exact iff_of_true hpaced fun hknown hat => absurd ⟨hat, hknown⟩ hheld

/-- The held tick is in the window when that of a command without a requested tick is. -/
theorem heldTick_le_iff (hknown : limits.latestAccepted > 0) (last : Option Tick)
    (envelope : CommandEnvelope) :
    heldTick marginUs limits last envelope ≤ limits.latestAccepted ↔
      (envelope.executeAt = none →
        pacedTick marginUs limits last envelope ≤ limits.latestAccepted) := by
  cases hat : envelope.executeAt with
  | none => simp [heldTick, hat]
  | some requested => simp [heldTick, hat, hknown, UInt64.le_iff_toNat_le]

theorem heldTick_eq_min (hknown : limits.latestAccepted > 0) {last : Option Tick}
    {envelope : CommandEnvelope}
    (hle : heldTick marginUs limits last envelope ≤ limits.latestAccepted) :
    heldTick marginUs limits last envelope =
      min (pacedTick marginUs limits last envelope) limits.latestAccepted := by
  rw [heldTick_le_iff hknown] at hle
  rw [← targetTick_eq_heldTick, targetTick_eq hknown last hle]

theorem orderKept_cons (last : Option Tick) (envelope : CommandEnvelope)
    (rest : List CommandEnvelope) :
    OrderKept marginUs limits last (envelope :: rest) ↔
      (limits.latestAccepted > 0 → envelope.executeAt.isSome →
        ∀ tick, last = some tick → tick ≤ limits.latestAccepted) ∧
      OrderKept marginUs limits (some (heldTick marginUs limits last envelope)) rest := by
  simp only [OrderKept, ← forall_and]
  apply forall_congr'
  intro hknown
  constructor
  · refine fun hall => ⟨fun hat => (hall [] envelope rest rfl hat).1, ?_⟩
    rintro before requested after rfl hrequested
    obtain ⟨-, hpaced, hbefore⟩ := hall (envelope :: before) requested after rfl hrequested
    have hle := (heldTick_le_iff hknown last envelope).mpr hpaced
    refine ⟨fun tick htick => Option.some.inj htick ▸ hle, ?_⟩
    rwa [heldTick_eq_min hknown hle]
  · rintro ⟨hhead, hrest⟩ before requested after heq hrequested
    cases before with
    | nil =>
      obtain ⟨rfl, rfl⟩ := List.cons.inj heq
      exact ⟨hhead hrequested, trivial⟩
    | cons first before =>
      obtain ⟨rfl, rfl⟩ := List.cons.inj heq
      obtain ⟨hle, hbefore⟩ := hrest before requested after rfl hrequested
      replace hle := hle _ rfl
      rw [heldTick_eq_min hknown hle] at hbefore
      refine ⟨fun tick htick => ?_, (heldTick_le_iff hknown last envelope).mp hle, hbefore⟩
      -- without a requested tick the held tick is not before the last one
      by_cases hat : envelope.executeAt.isSome
      · exact hhead hat tick htick
      · rw [heldTick, if_neg fun h => hat h.1, UInt64.le_iff_toNat_le] at hle
        subst htick
        exact UInt64.le_iff_toNat_le.mpr ((le_pacedTick envelope).trans hle)

/-- A batch keeps the order and is not before the last tick, exactly when it is kept. -/
theorem schedule_order_iff (last : Option Tick) (items : List CommandEnvelope) :
    (InTickOrder (WorkflowRunner.schedule marginUs limits last items).1 ∧
      ∀ tick, last = some tick →
        ∀ scheduled ∈ (WorkflowRunner.schedule marginUs limits last items).1,
          tick.toNat ≤ dispatchTick scheduled) ↔ OrderKept marginUs limits last items := by
  induction items generalizing last with
  | nil => exact iff_of_true ⟨.nil, fun _ _ => nofun⟩ fun _ before => by simp
  | cons envelope rest ih =>
    rw [WorkflowRunner.schedule, targetTick_eq_heldTick, orderKept_cons, ← le_heldTick_iff, ← ih]
    simp only [InTickOrder, List.pairwise_cons, List.forall_mem_cons]
    constructor
    · rintro ⟨⟨hhead, hrest⟩, hlast⟩
      refine ⟨fun tick htick => (hlast tick htick).1, hrest, ?_⟩
      intro tick htick
      obtain rfl := Option.some.inj htick
      exact hhead
    · rintro ⟨hlast, hrest, hhead⟩
      refine ⟨⟨hhead _ rfl, hrest⟩, fun tick htick => ⟨hlast tick htick, ?_⟩⟩
      exact fun scheduled hmem => (hlast tick htick).trans (hhead _ rfl scheduled hmem)

/-- The last tick after a batch is that of its last command. -/
theorem schedule_snd (last : Option Tick) (items : List CommandEnvelope) :
    (WorkflowRunner.schedule marginUs limits last items).2 =
      (WorkflowRunner.schedule marginUs limits last items).1.foldl (fun _ e => e.executeAt)
        last := by
  induction items generalizing last with
  | nil => rfl
  | cons envelope rest ih => exact ih _

/-- The last tick of the runner is that of the last dispatched command. -/
structure LastTick (runner : WorkflowRunner) (marks : List RunnerMark) : Prop where
  last : runner.lastDispatchedTick = (dispatchedItems marks).foldl (fun _ e => e.executeAt) none
  ticks : ∀ envelope ∈ dispatchedItems marks, envelope.executeAt.isSome

theorem nextDispatchBatch_lastDispatchedTick (runner : WorkflowRunner) :
    runner.nextDispatchBatch.2.lastDispatchedTick =
      runner.nextDispatchBatch.1.foldl (fun _ e => e.executeAt) runner.lastDispatchedTick := by
  obtain ⟨state, hnext⟩ := nextDispatchBatch_snd runner
  rw [hnext, runner.nextDispatchBatch_fst]
  exact schedule_snd _ _

theorem LastTick.step {runner : WorkflowRunner} {marks : List RunnerMark}
    (h : LastTick runner marks) (event : RunnerEvent) :
    LastTick (runnerMachine.step runner event).1
      (marks ++ (runnerMachine.step runner event).2) := by
  by_cases hdispatch : event = .nextDispatchBatch
  · subst hdispatch
    constructor
    · simp only [runnerMachine, nextDispatchBatch_lastDispatchedTick, dispatchedItems_append,
        dispatchedItems_dispatched, List.foldl_append, ← h.last]
    · simp only [runnerMachine, dispatchedItems_append, dispatchedItems_dispatched,
        runner.nextDispatchBatch_fst]
      exact List.forall_mem_append.mpr ⟨h.ticks, WorkflowRunner.isSome_schedule _ _ _ _⟩
  · obtain ⟨hmarks, hlast⟩ := runnerStep_of_ne_dispatch runner hdispatch
    constructor
    · rw [hlast, h.last, dispatchedItems_append, hmarks, List.append_nil]
    · rw [dispatchedItems_append, hmarks, List.append_nil]
      exact h.ticks

/-- What follows a run in order is in order with it, exactly when it is not before the last
tick. -/
theorem LastTick.order_append_iff {runner : WorkflowRunner} {marks : List RunnerMark}
    (h : LastTick runner marks) (horder : InTickOrder (dispatchedItems marks))
    (batch : List CommandEnvelope) :
    InTickOrder (dispatchedItems marks ++ batch) ↔
      InTickOrder batch ∧ ∀ tick, runner.lastDispatchedTick = some tick →
        ∀ scheduled ∈ batch, tick.toNat ≤ dispatchTick scheduled := by
  have hsplit : InTickOrder (dispatchedItems marks ++ batch) ↔ InTickOrder batch ∧
      ∀ envelope ∈ dispatchedItems marks, ∀ scheduled ∈ batch,
        dispatchTick envelope ≤ dispatchTick scheduled :=
    List.pairwise_append.trans (and_iff_right horder)
  rw [hsplit, h.last]
  apply and_congr_right
  intro _
  obtain hnone | ⟨before, final, hfinal⟩ := List.eq_nil_or_concat (dispatchedItems marks)
  · rw [hnone]
    exact iff_of_true nofun nofun
  · have hticks := h.ticks
    rw [List.concat_eq_append] at hfinal
    rw [hfinal] at horder hticks ⊢
    obtain ⟨tick, htick⟩ := Option.isSome_iff_exists.mp (hticks final (by simp))
    have htoNat : dispatchTick final = tick.toNat := by rw [dispatchTick, htick]; rfl
    have hbefore : ∀ envelope ∈ before, dispatchTick envelope ≤ tick.toNat := fun envelope hmem =>
      htoNat ▸ (List.pairwise_append.mp horder).2.2 envelope hmem final (.head _)
    rw [List.foldl_append, List.forall_mem_append, List.forall_mem_singleton, htoNat]
    simp only [List.foldl_cons, List.foldl_nil, htick, Option.some.injEq, forall_eq']
    exact and_iff_right_of_imp fun hlast envelope hmem scheduled hscheduled =>
      (hbefore envelope hmem).trans (hlast scheduled hscheduled)

/-- A call keeps the order exactly when its dispatch does. -/
theorem LastTick.order_step_iff {runner : WorkflowRunner} {marks : List RunnerMark}
    (h : LastTick runner marks) (horder : InTickOrder (dispatchedItems marks))
    (event : RunnerEvent) :
    InTickOrder (dispatchedItems (marks ++ (runnerMachine.step runner event).2)) ↔
      KeepsOrder runner event := by
  by_cases hdispatch : event = .nextDispatchBatch
  · subst hdispatch
    simp only [runnerMachine, dispatchedItems_append, dispatchedItems_dispatched]
    rw [h.order_append_iff horder, runner.nextDispatchBatch_fst, schedule_order_iff]
    exact ⟨fun hkept _ => hkept, fun hkept => hkept rfl⟩
  · rw [dispatchedItems_append, (runnerStep_of_ne_dispatch runner hdispatch).1, List.append_nil]
    exact iff_of_true horder fun hevent => absurd hevent hdispatch

/-- The ticks of a run are in the order of the dispatches exactly when no dispatch has a requested
tick after a tick behind the window. A controller that executes by tick and arrival
then executes the job in the order in which it was enqueued. -/
theorem dispatch_order_iff (config : RunnerConfig) (events : List RunnerEvent) :
    let outcome := runnerMachine.run (.new config) events
    (InTickOrder (dispatchedItems outcome.2) ↔
        runnerMachine.Along KeepsOrder (.new config) events) ∧
      (InTickOrder (dispatchedItems outcome.2) →
        commands (executionOrder (dispatchedItems outcome.2)) ++ commands outcome.1.jobQueue =
          commands (enqueuedItems outcome.2)) := by
  intro outcome
  constructor
  · have hnew : LastTick (.new config) [] := ⟨rfl, nofun⟩
    refine Machine.output_iff_along (Q := fun marks => InTickOrder (dispatchedItems marks))
      (fun _ _ event h _ => LastTick.step h event)
      (fun _ _ event h _ horder => h.order_step_iff horder event)
      (fun marks later horder => ?_) hnew .nil (Machine.along_of_forall (fun _ _ => trivial) _)
    rw [dispatchedItems_append] at horder
    exact (List.pairwise_append.mp horder).1
  · intro horder
    obtain ⟨⟨taken, hqueue, htaken⟩, -⟩ := conserved_run config events
    rw [executionOrder, Agenda.foldl_insertByDue (by exact horder), List.nil_append, ← htaken,
      ← commands_append, ← hqueue]

/-- The third command is held to the latest tick of the window, which is before the tick of the
second, and would be executed before it. -/
theorem dispatch_out_of_order :
    let status : ControllerSessionStatus := ⟨"mcu1", 50000, 0, 16, 0, 1000, 1500, false, true⟩
    let events : List RunnerEvent := [.enqueueBatch [⟨none, .home "x" 10000⟩,
      ⟨none, .move "x" 500 10000⟩, ⟨some 1400, .move "x" 400 10000⟩],
      .updateControllerStatus status, .nextDispatchBatch]
    let outcome := runnerMachine.run (.new .default) events
    dispatchedItems outcome.2 = [⟨some 1000, .home "x" 10000⟩, ⟨some 2000, .move "x" 500 10000⟩,
        ⟨some 1500, .move "x" 400 10000⟩] ∧
      executionOrder (dispatchedItems outcome.2) = [⟨some 1000, .home "x" 10000⟩,
        ⟨some 1500, .move "x" 400 10000⟩, ⟨some 2000, .move "x" 500 10000⟩] ∧
      ¬ InTickOrder (dispatchedItems outcome.2) := by
  intro status events outcome
  have hdispatched : dispatchedItems outcome.2 = [⟨some 1000, .home "x" 10000⟩,
      ⟨some 2000, .move "x" 500 10000⟩, ⟨some 1500, .move "x" 400 10000⟩] := by decide +kernel
  rw [hdispatched]
  refine ⟨rfl, by decide +kernel, ?_⟩
  intro horder
  exact absurd ((List.pairwise_cons.mp (List.pairwise_cons.mp horder).2).1 _ (.head _)) (by decide)

end Dryer.Workflow
