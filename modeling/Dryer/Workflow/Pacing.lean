import Dryer.Simulator.Controller
import Dryer.Workflow.Conservation

/-!
# The pace of a batch

The ticks that a dispatch gives to its commands, by the ticks that were requested: where they
lie in the window of the controller, and that they are aligned.
-/
namespace Dryer.Workflow
open Library ControlProtocol

/-- A requested tick lies on the execution quantum of the controller. -/
def Aligned (envelope : CommandEnvelope) : Prop :=
  ∀ tick, envelope.executeAt = some tick → tick % Simulator.stepTicks = 0

/-- The tick of a command as the pace of its batch has it. -/
def pacedTick (marginUs : UInt64) (limits : WorkflowRunner.DispatchLimits) (last : Option Tick)
    (envelope : CommandEnvelope) : Tick :=
  WorkflowRunner.afterLast marginUs last
    (max (envelope.executeAt.getD 0) limits.earliestAccepted)

/-- At the pace of the batch every command without a requested tick is still in the window. -/
def Paced (marginUs : UInt64) (limits : WorkflowRunner.DispatchLimits) :
    Option Tick → List CommandEnvelope → Prop
  | _, [] => True
  | last, envelope :: rest =>
    (envelope.executeAt = none →
      pacedTick marginUs limits last envelope ≤ limits.latestAccepted) ∧
    Paced marginUs limits
      (some (min (pacedTick marginUs limits last envelope) limits.latestAccepted)) rest

/-- The pace of the batch keeps to the execution quantum. -/
def PacedAligned (marginUs : UInt64) (limits : WorkflowRunner.DispatchLimits) :
    Option Tick → List CommandEnvelope → Prop
  | _, [] => True
  | last, envelope :: rest =>
    min (pacedTick marginUs limits last envelope) limits.latestAccepted %
      Simulator.stepTicks = 0 ∧
    PacedAligned marginUs limits
      (some (min (pacedTick marginUs limits last envelope) limits.latestAccepted)) rest

/-- The limits and the last tick are aligned, but for a last tick that ran out of range. -/
structure AlignedLimits (limits : WorkflowRunner.DispatchLimits) (last : Option Tick) : Prop where
  earliest : limits.earliestAccepted % Simulator.stepTicks = 0
  latest : limits.latestAccepted % Simulator.stepTicks = 0
  last : ∀ tick, last = some tick →
    tick % Simulator.stepTicks = 0 ∨ tick = UInt64.ofNat (2 ^ 64 - 1)

variable {marginUs : UInt64} {limits : WorkflowRunner.DispatchLimits} {last : Option Tick}
  {items : List CommandEnvelope}

theorem toNat_afterLast (marginUs : UInt64) (last : Option Tick) (t : Tick) :
    (WorkflowRunner.afterLast marginUs last t).toNat =
      last.elim t.toNat fun last =>
        max t.toNat (min (last.toNat + marginUs.toNat) (2 ^ 64 - 1)) := by
  cases last with
  | none => rfl
  | some last => simp [WorkflowRunner.afterLast]

theorem mod_stepTicks_eq_zero {tick : Tick} :
    tick % Simulator.stepTicks = 0 ↔ tick.toNat % 1000 = 0 := by
  rw [← UInt64.toNat_inj, UInt64.toNat_mod]
  exact Iff.rfl

theorem targetTick_of_none {envelope : CommandEnvelope} (hat : envelope.executeAt = none)
    (last : Option Tick) :
    WorkflowRunner.targetTick marginUs limits last envelope.executeAt =
      pacedTick marginUs limits last envelope := by
  have hmax : max 0 limits.earliestAccepted = limits.earliestAccepted := by
    rw [← UInt64.toNat_inj]
    simp
  simp only [pacedTick, hat, Option.getD_none, hmax]
  rfl

/-- A requested tick is held before the latest; a command without one gets the pace. -/
theorem targetTick_eq (hlatest : limits.latestAccepted > 0) (last : Option Tick)
    {envelope : CommandEnvelope} (hpaced : envelope.executeAt = none →
      pacedTick marginUs limits last envelope ≤ limits.latestAccepted) :
    WorkflowRunner.targetTick marginUs limits last envelope.executeAt =
      min (pacedTick marginUs limits last envelope) limits.latestAccepted := by
  cases hat : envelope.executeAt with
  | none =>
    rw [← hat, targetTick_of_none hat, ← UInt64.toNat_inj, U64.toNat_min]
    exact (min_eq_left (UInt64.le_iff_toNat_le.mp (hpaced hat))).symm
  | some requested =>
    simp only [WorkflowRunner.targetTick, pacedTick, hat, Option.getD_some]
    rw [← UInt64.toNat_inj, U64.toNat_min]
    split
    · rename_i hlate
      have hlt := UInt64.lt_iff_toNat_lt.mp hlate.2
      omega
    · rename_i hin
      have hle := UInt64.le_iff_toNat_le.mp (UInt64.not_lt.mp fun hlt => hin ⟨hlatest, hlt⟩)
      omega

theorem earliest_le_targetTick (hwindow : limits.earliestAccepted ≤ limits.latestAccepted)
    (last requested : Option Tick) :
    limits.earliestAccepted ≤ WorkflowRunner.targetTick marginUs limits last requested := by
  have hafter (t : Tick) (hle : limits.earliestAccepted ≤ t) :
      limits.earliestAccepted ≤ WorkflowRunner.afterLast marginUs last t := by
    rw [UInt64.le_iff_toNat_le] at hle ⊢
    rw [toNat_afterLast]
    cases last with
    | none => exact hle
    | some last => exact hle.trans (le_max_left _ _)
  cases requested with
  | none => exact hafter _ (UInt64.le_refl _)
  | some requested =>
    simp only [WorkflowRunner.targetTick]
    split
    · exact hwindow
    · apply hafter
      rw [UInt64.le_iff_toNat_le, U64.toNat_max]
      exact le_max_right _ _

/-- No command of a batch is early, when the window is not empty. -/
theorem earliest_le_schedule (hwindow : limits.earliestAccepted ≤ limits.latestAccepted)
    (last : Option Tick) (items : List CommandEnvelope) :
    ∀ scheduled ∈ (WorkflowRunner.schedule marginUs limits last items).1,
      ∃ tick, scheduled.executeAt = some tick ∧ limits.earliestAccepted ≤ tick := by
  induction items generalizing last with
  | nil => exact nofun
  | cons envelope rest ih =>
    exact List.forall_mem_cons.mpr
      ⟨⟨_, rfl, earliest_le_targetTick hwindow last envelope.executeAt⟩, ih _⟩

/-- No command of a batch is late, exactly when none without a requested tick is at the pace of
the batch. -/
theorem schedule_latest_iff (hlatest : limits.latestAccepted > 0) (last : Option Tick)
    (items : List CommandEnvelope) :
    (∀ scheduled ∈ (WorkflowRunner.schedule marginUs limits last items).1, ∀ tick,
      scheduled.executeAt = some tick → tick ≤ limits.latestAccepted) ↔
      Paced marginUs limits last items := by
  induction items generalizing last with
  | nil => exact iff_of_true nofun trivial
  | cons envelope rest ih =>
    rw [WorkflowRunner.schedule, List.forall_mem_cons, ih, Paced]
    constructor
    · rintro ⟨hhead, hrest⟩
      have hpaced : envelope.executeAt = none →
          pacedTick marginUs limits last envelope ≤ limits.latestAccepted :=
        fun hat => targetTick_of_none hat last ▸ hhead _ rfl
      exact ⟨hpaced, targetTick_eq hlatest last hpaced ▸ hrest⟩
    · rintro ⟨hpaced, hrest⟩
      rw [← targetTick_eq hlatest last hpaced] at hrest
      refine ⟨fun tick htick => ?_, hrest⟩
      obtain rfl := Option.some.inj htick
      rw [targetTick_eq hlatest last hpaced, UInt64.le_iff_toNat_le, U64.toNat_min]
      exact min_le_right _ _

/-- A batch that keeps to the window is aligned exactly when its pace is. -/
theorem schedule_aligned_iff (hlatest : limits.latestAccepted > 0) {last : Option Tick}
    {items : List CommandEnvelope} (hpaced : Paced marginUs limits last items) :
    (∀ scheduled ∈ (WorkflowRunner.schedule marginUs limits last items).1, ∀ tick,
      scheduled.executeAt = some tick → tick % Simulator.stepTicks = 0) ↔
      PacedAligned marginUs limits last items := by
  induction items generalizing last with
  | nil => exact iff_of_true nofun trivial
  | cons envelope rest ih =>
    have htarget := targetTick_eq hlatest last hpaced.1
    rw [WorkflowRunner.schedule, List.forall_mem_cons, htarget, ih hpaced.2, PacedAligned]
    exact and_congr_left fun _ => ⟨fun h => h _ rfl, fun h tick htick => Option.some.inj htick ▸ h⟩

/-- The ticks of a batch are in the window and aligned, exactly when its pace is. -/
theorem schedule_fits_iff (hlatest : limits.latestAccepted > 0) (last : Option Tick)
    (items : List CommandEnvelope) :
    (∀ scheduled ∈ (WorkflowRunner.schedule marginUs limits last items).1, ∀ tick,
      scheduled.executeAt = some tick →
        tick ≤ limits.latestAccepted ∧ tick % Simulator.stepTicks = 0) ↔
      Paced marginUs limits last items ∧ PacedAligned marginUs limits last items := by
  simp only [imp_and, forall_and, schedule_latest_iff hlatest]
  exact and_congr_right (schedule_aligned_iff hlatest)

/-- With aligned limits, requests and margin the pace is aligned. -/
theorem pacedAligned (hmargin : marginUs % Simulator.stepTicks = 0)
    (hitems : ∀ envelope ∈ items, Aligned envelope) (h : AlignedLimits limits last) :
    PacedAligned marginUs limits last items := by
  induction items generalizing last with
  | nil => trivial
  | cons envelope rest ih =>
    obtain ⟨hhead, hrest⟩ := List.forall_mem_cons.mp hitems
    obtain ⟨hearliest, hlatest, hlast⟩ := h
    have haligned : min (pacedTick marginUs limits last envelope) limits.latestAccepted %
        Simulator.stepTicks = 0 := by
      have hrequested : (envelope.executeAt.getD 0).toNat % 1000 = 0 := by
        cases hat : envelope.executeAt with
        | none => rfl
        | some requested => exact mod_stepTicks_eq_zero.mp (hhead requested hat)
      have hmax := limits.latestAccepted.toNat_lt
      rw [mod_stepTicks_eq_zero] at hmargin hearliest hlatest ⊢
      rw [U64.toNat_min, pacedTick, toNat_afterLast, U64.toNat_max]
      cases last with
      | none => simp only [Option.elim_none]; omega
      | some last =>
        simp only [Option.elim_some]
        obtain htick | rfl := hlast last rfl
        · rw [mod_stepTicks_eq_zero] at htick
          omega
        · have hvalue : (UInt64.ofNat (2 ^ 64 - 1)).toNat = 2 ^ 64 - 1 := rfl
          omega
    refine ⟨haligned, ih hrest ⟨hearliest, hlatest, fun tick htick => .inl ?_⟩⟩
    obtain rfl := Option.some.inj htick
    exact haligned

end Dryer.Workflow
