import Dryer.Clock.Windows

/-!
# Sessions with different slew bounds

Two sessions fed the same samples, the second with the larger bound. What the first accepts
the second accepts, unless its arithmetic overflows, and its intervals are wider throughout.
-/
namespace Dryer.Clock
open Library

/-! ## Overflow as the only failure -/

/-- An error that is no verdict on the sample. -/
abbrev Overflow (e : ClockSyncError) : Prop := e = .arithmeticOverflow

theorem checked_failsWith {α : Type} (result : Option α) : FailsWith Overflow (checked result) := by
  intro e h
  cases result with
  | none =>
    cases h
    rfl
  | some a => cases h

theorem divFloor_failsWith (numerator denominator : I128) :
    FailsWith Overflow (divFloor numerator denominator) := by
  apply (checked_failsWith _).bind
  intro quotient _
  apply (checked_failsWith _).bind
  intro remainder _
  split
  · exact checked_failsWith _
  · exact FailsWith.pure _

theorem divCeil_failsWith (numerator denominator : I128) :
    FailsWith Overflow (divCeil numerator denominator) := by
  apply (checked_failsWith _).bind
  intro quotient _
  apply (checked_failsWith _).bind
  intro remainder _
  split
  · exact checked_failsWith _
  · exact FailsWith.pure _

theorem divRoundNearestTiesAway_failsWith (numerator denominator : I128) :
    FailsWith Overflow (divRoundNearestTiesAway numerator denominator) := by
  apply (checked_failsWith _).bind
  intro quotient _
  apply (checked_failsWith _).bind
  intro remainder _
  apply (checked_failsWith _).bind
  intro magnitude _
  split
  · exact FailsWith.pure _
  split
  · exact checked_failsWith _
  · exact checked_failsWith _

/-! ## Observations -/

/-- The second observation is of the same exchange, with a wider interval. -/
structure Widens (narrow wide : OffsetObservation) : Prop where
  reference : wide.referenceHost = narrow.referenceHost
  low : wide.offsetMinTicks.val ≤ narrow.offsetMinTicks.val
  high : narrow.offsetMaxTicks.val ≤ wide.offsetMaxTicks.val

theorem allowance_mono {slewPpb widerPpb span : ℤ} (hslew : slewPpb ≤ widerPpb)
    (hspan : 0 ≤ span) : allowance slewPpb span ≤ allowance widerPpb span :=
  ceilDiv_mono (by decide) (mul_le_mul_of_nonneg_left hslew hspan)

theorem Observes.widens {sample : ClockSample} {slewPpb widerPpb : ℤ}
    {narrow wide : OffsetObservation} (h : Observes sample slewPpb narrow)
    (h' : Observes sample widerPpb wide) (hslew : slewPpb ≤ widerPpb) : Widens narrow wide := by
  have hspan := h.span
  have hspan' := h'.span
  have hsame : wide.roundTripTicks = narrow.roundTripTicks := UInt64.toNat_inj.mp (by omega)
  have hlow := h.low
  have hlow' := h'.low
  have hhigh := h.high
  have hhigh' := h'.high
  rw [hsame] at hlow' hhigh'
  have hallow := allowance_mono hslew (Int.natCast_nonneg narrow.roundTripTicks.toNat)
  refine ⟨?_, by omega, by omega⟩
  apply congrArg HostTick.mk
  apply UInt64.toNat_inj.mp
  rw [h.reference, h'.reference, hsame]

/-- A sample that a smaller bound accepts is refused only by an overflow. -/
theorem observeBounded_failsWith {sample : ClockSample} {maxSlewPpb widerPpb : I128}
    {observation : OffsetObservation} (h : observeBounded sample maxSlewPpb = .ok observation)
    (hslew : maxSlewPpb.val ≤ widerPpb.val) :
    FailsWith Overflow (observeBounded sample widerPpb) := by
  have hobserves := observeBounded_observes h
  have hcontroller := UInt64.not_lt.mpr hobserves.controller
  obtain ⟨span, hspan, -⟩ := bind_eq_ok.mp h
  apply FailsWith.bind (P := Overflow) (FailsWith.of_ok hspan)
  intro hostElapsed hhostElapsed
  apply FailsWith.bind (P := Overflow) (FailsWith.reject hcontroller)
  intro _ _
  apply (checked_failsWith _).bind
  intro product hproduct
  apply (divCeil_failsWith _ _).bind
  intro allow hallow
  apply (checked_failsWith _).bind
  intro nominalLow hnominalLow
  apply (checked_failsWith _).bind
  intro nominalHigh hnominalHigh
  apply (checked_failsWith _).bind
  intro low hlow
  apply (checked_failsWith _).bind
  intro high hhigh
  apply (checked_failsWith _).bind
  intro width hwidth
  -- the width is that of the smaller bound, and twice the difference of the allowances
  have hnonneg : ¬ width.val < 0 := by
    simp only [okOr_eq_ok, checked_eq_ok, U64.checkedSub_eq_some, BoundedInt.checkedAdd_eq_some,
      BoundedInt.checkedSub_eq_some, BoundedInt.checkedMul_eq_some, I128.ofUInt64_val,
      divCeil_eq_ok (show 0 < midpointSlewDenominator.val by decide)] at *
    have hrtt := hobserves.span
    have hlow' := hobserves.low
    have hhigh' := hobserves.high
    have hordered := hobserves.ordered
    have hsame : (hostElapsed.toNat : ℤ) = observation.roundTripTicks.toNat := by omega
    have hallow' := allowance_mono hslew (Int.natCast_nonneg observation.roundTripTicks.toNat)
    rw [hproduct, ceilDiv_denominator, hsame] at hallow
    omega
  apply FailsWith.bind (P := Overflow) (FailsWith.reject hnonneg)
  intro _ _
  apply (checked_failsWith _).bind
  intro midpoint _
  apply (checked_failsWith _).bind
  intro reference _
  exact FailsWith.pure _

theorem estimateDrift_failsWith {previous current : OffsetObservation}
    (h : previous.referenceHost.ticks < current.referenceHost.ticks) :
    FailsWith Overflow (estimateDrift previous current) := by
  have hbaseline : ∃ baseline, okOr ((U64.checkedSub current.referenceHost.ticks
      previous.referenceHost.ticks).filter (· ≠ 0)) ClockSyncError.insufficientSeparation =
        .ok baseline := by
    have hlt := UInt64.lt_iff_toNat_lt.mp h
    have hsub : U64.checkedSub current.referenceHost.ticks previous.referenceHost.ticks =
        some (current.referenceHost.ticks - previous.referenceHost.ticks) :=
      if_neg (UInt64.not_lt.mpr (UInt64.le_of_lt h))
    have hsum := U64.checkedSub_eq_some.mp hsub
    have hnonzero : current.referenceHost.ticks - previous.referenceHost.ticks ≠ 0 := by
      intro hzero
      rw [hzero] at hsum
      simp at hsum
      omega
    exact ⟨_, okOr_eq_ok.mpr (Option.filter_eq_some_iff.mpr ⟨hsub, by simpa using hnonzero⟩)⟩
  obtain ⟨baseline, hbaseline⟩ := hbaseline
  apply FailsWith.bind (P := Overflow) (FailsWith.of_ok hbaseline)
  intro baselineTicks _
  apply (checked_failsWith _).bind
  intro pointDelta _
  apply (checked_failsWith _).bind
  intro minimumDelta _
  apply (checked_failsWith _).bind
  intro maximumDelta _
  apply (checked_failsWith _).bind
  intro pointScaled _
  apply (divRoundNearestTiesAway_failsWith _ _).bind
  intro ppb _
  apply (checked_failsWith _).bind
  intro minimumScaled _
  apply (divFloor_failsWith _ _).bind
  intro minPpb _
  apply (checked_failsWith _).bind
  intro maximumScaled _
  apply (divCeil_failsWith _ _).bind
  intro maxPpb _
  exact FailsWith.pure _

/-- The second drift interval contains the first. -/
structure WidensEstimate (narrow wide : ClockEstimate) : Prop where
  anchor : Widens narrow.anchor wide.anchor
  low : wide.drift.minPpb.val ≤ narrow.drift.minPpb.val
  high : narrow.drift.maxPpb.val ≤ wide.drift.maxPpb.val

/-- Wider intervals at both ends give a wider drift interval. -/
theorem Drifts.widens {previous current widePrevious wideCurrent : OffsetObservation}
    {drift wideDrift : DriftEstimate} (h : Drifts previous current drift)
    (h' : Drifts widePrevious wideCurrent wideDrift) (hprevious : Widens previous widePrevious)
    (hcurrent : Widens current wideCurrent) :
    wideDrift.minPpb.val ≤ drift.minPpb.val ∧ drift.maxPpb.val ≤ wideDrift.maxPpb.val := by
  have hunit : 0 ≤ partsPerBillion.val := by decide
  have hbaseline := h.baseline
  have hbaseline' := h'.baseline
  rw [hprevious.reference, hcurrent.reference] at hbaseline'
  have hsame : (wideDrift.baselineTicks.toNat : ℤ) = drift.baselineTicks.toNat := by omega
  constructor
  · rw [h.low, h'.low, hsame]
    exact Int.ediv_le_ediv h.later (mul_le_mul_of_nonneg_right
      (sub_le_sub hcurrent.low hprevious.high) hunit)
  · rw [h.high, h'.high, hsame]
    exact ceilDiv_mono h.later (mul_le_mul_of_nonneg_right
      (sub_le_sub hcurrent.high hprevious.low) hunit)

namespace ClockSync

/-! ## Two sessions -/

/-- The second session has seen the same samples, under a larger bound. -/
structure Wider (narrow wide : ClockSync) : Prop where
  slew : narrow.maxSlewPpb.val ≤ wide.maxSlewPpb.val
  lastRaw : wide.lastRaw = narrow.lastRaw
  previous : Option.Rel Widens narrow.previous wide.previous
  estimate : Option.Rel WidensEstimate narrow.estimate wide.estimate

theorem wider_of_new {maxSlewPpb widerPpb : I128} {narrow wide : ClockSync}
    (h : new maxSlewPpb = .ok narrow) (h' : new widerPpb = .ok wide)
    (hslew : maxSlewPpb.val ≤ widerPpb.val) : Wider narrow wide := by
  unfold new at h h'
  split at h
  · cases h
  split at h'
  · cases h'
  cases h
  cases h'
  exact ⟨hslew, rfl, Option.Rel.none, Option.Rel.none⟩

namespace Wider

variable {narrow wide : ClockSync} (h : Wider narrow wide) {sample : ClockSample}
  {observation : OffsetObservation} {estimate : Option ClockEstimate}
  (hcheck : narrow.check sample = .ok (observation, estimate))
include h hcheck

/-- A sample that the first session accepts is refused by the second only for an overflow. -/
theorem check_failsWith : FailsWith Overflow (wide.check sample) := by
  have hchecked := checked_of_check hcheck
  rw [check_eq]
  apply (observeBounded_failsWith hchecked.observes h.slew).bind
  intro wideObservation hobserve
  have hwidens := (observeBounded_observes hchecked.observes).widens
    (observeBounded_observes hobserve) h.slew
  have hraw : FailsWith Overflow (wide.lastRaw.elim (pure ()) (requireOrdered · sample)) := by
    cases hlast : wide.lastRaw with
    | none => exact FailsWith.pure _
    | some last => exact FailsWith.of_ok (hchecked.ordered last (h.lastRaw ▸ hlast))
  apply hraw.bind
  intro _ _
  have hprevious := h.previous
  cases hwide : wide.previous with
  | none => exact FailsWith.pure _
  | some widePrevious =>
    rw [hwide] at hprevious
    cases hnarrow : narrow.previous with
    | none =>
      rw [hnarrow] at hprevious
      cases hprevious
    | some previous =>
      rw [hnarrow] at hprevious
      obtain ⟨hsame⟩ := hprevious
      have hlater := (hchecked.next previous hnarrow).1
      rw [← hwidens.reference, ← hsame.reference] at hlater
      apply FailsWith.bind (P := Overflow) (FailsWith.reject (UInt64.not_le.mpr hlater))
      intro _ _
      apply (estimateDrift_failsWith hlater).bind
      intro drift _
      exact FailsWith.pure _

/-- Both sessions accept the sample, and the second stays the wider one. -/
theorem push (hno : (wide.push sample).1 ≠ .error .arithmeticOverflow) :
    (∃ next, (wide.push sample).1 = .ok next) ∧
      Wider (narrow.push sample).2 (wide.push sample).2 := by
  rcases hwide : wide.check sample with e | ⟨wideObservation, wideEstimate⟩
  · obtain rfl := h.check_failsWith hcheck e hwide
    rw [push_of_error hwide] at hno
    exact absurd rfl hno
  have hchecked := checked_of_check hcheck
  have hchecked' := checked_of_check hwide
  have hwidens := (observeBounded_observes hchecked.observes).widens
    (observeBounded_observes hchecked'.observes) h.slew
  rw [push_of_ok hcheck, push_of_ok hwide]
  refine ⟨⟨_, rfl⟩, h.slew, rfl, Option.Rel.some hwidens, ?_⟩
  have hprevious := h.previous
  cases hnarrow : narrow.previous with
  | none =>
    rw [hnarrow] at hprevious
    cases hnone : wide.previous with
    | none =>
      rw [hchecked.first hnarrow, hchecked'.first hnone]
      exact h.estimate
    | some previous =>
      rw [hnone] at hprevious
      cases hprevious
  | some previous =>
    rw [hnarrow] at hprevious
    cases hsome : wide.previous with
    | none =>
      rw [hsome] at hprevious
      cases hprevious
    | some widePrevious =>
      rw [hsome] at hprevious
      obtain ⟨hsame⟩ := hprevious
      obtain ⟨-, drift, hdrift, rfl⟩ := hchecked.next previous hnarrow
      obtain ⟨-, wideDrift, hwideDrift, rfl⟩ := hchecked'.next widePrevious hsome
      obtain ⟨hlow, hhigh⟩ := (estimateDrift_drifts hdrift).widens
        (estimateDrift_drifts hwideDrift) hsame hwidens
      exact Option.Rel.some ⟨hwidens, hlow, hhigh⟩

end Wider

/-! ## Windows -/

theorem Wider.ppb {narrow wide : ClockSync} (h : Wider narrow wide)
    {estimate wideEstimate : ClockEstimate} (he : WidensEstimate estimate wideEstimate) :
    wide.minimumPpb wideEstimate ≤ narrow.minimumPpb estimate ∧
      narrow.maximumPpb estimate ≤ wide.maximumPpb wideEstimate := by
  have hslew := h.slew
  have hlow := he.low
  have hhigh := he.high
  unfold minimumPpb maximumPpb
  omega

/-- Where both sessions have a window, that of the second contains that of the first. -/
theorem Wider.window {narrow wide : ClockSync} (h : Wider narrow wide) {host : HostTick}
    {window wideWindow : ControllerWindow} (hwindow : narrow.controllerWindow host = .ok window)
    (hwide : wide.controllerWindow host = .ok wideWindow) :
    wideWindow.earliest.ticks ≤ window.earliest.ticks ∧
      window.latest.ticks ≤ wideWindow.latest.ticks := by
  obtain ⟨low, _, high, hproject, hlow, -, hhigh⟩ := controllerWindow_eq_ok.mp hwindow
  obtain ⟨low', _, high', hproject', hlow', -, hhigh'⟩ := controllerWindow_eq_ok.mp hwide
  obtain ⟨estimate, hestimate, hprojects⟩ := project_projects hproject
  obtain ⟨wideEstimate, hwideEstimate, hprojects'⟩ := project_projects hproject'
  have hrel := h.estimate
  rw [hestimate, hwideEstimate] at hrel
  obtain ⟨he⟩ := hrel
  rw [he.anchor.reference] at hprojects'
  obtain ⟨hmin, hmax⟩ := h.ppb he
  have hunit : 0 < partsPerBillion.val := by decide
  have hanchorLow := he.anchor.low
  have hanchorHigh := he.anchor.high
  have hcontains : low'.val ≤ low.val ∧ high.val ≤ high'.val := by
    rcases le_or_gt 0 ((host.ticks.toNat : ℤ) - estimate.anchor.referenceHost.ticks.toNat)
      with hforward | hbackward
    · obtain ⟨hlowval, hhighval⟩ := hprojects.forward hforward
      obtain ⟨hlowval', hhighval'⟩ := hprojects'.forward hforward
      have hdown := Int.ediv_le_ediv hunit (mul_le_mul_of_nonneg_left hmin hforward)
      have hup := ceilDiv_mono hunit (mul_le_mul_of_nonneg_left hmax hforward)
      unfold minimumPpb at hdown
      unfold maximumPpb at hup
      constructor <;> linarith
    · obtain ⟨hlowval, hhighval⟩ := hprojects.backward hbackward
      obtain ⟨hlowval', hhighval'⟩ := hprojects'.backward hbackward
      have hdown := Int.ediv_le_ediv hunit (mul_le_mul_of_nonpos_left hmax hbackward.le)
      have hup := ceilDiv_mono hunit (mul_le_mul_of_nonpos_left hmin hbackward.le)
      unfold maximumPpb at hdown
      unfold minimumPpb at hup
      constructor <;> linarith
  rw [UInt64.le_iff_toNat_le, UInt64.le_iff_toNat_le]
  omega

/-! ## Runs -/

/-- What a session returns for each sample in turn. -/
def outcomes (sync : ClockSync) :
    List ClockSample → List (Except ClockSyncError (Option ClockEstimate))
  | [] => []
  | sample :: later => (sync.push sample).1 :: outcomes (sync.push sample).2 later

/-- Every sample is accepted. -/
def AcceptsAll (sync : ClockSync) (samples : List ClockSample) : Prop :=
  ∀ outcome ∈ sync.outcomes samples, outcome.isOk

instance (sync : ClockSync) (samples : List ClockSample) : Decidable (sync.AcceptsAll samples) :=
  List.decidableBAll _ _

theorem Wider.pushAll {narrow wide : ClockSync} (h : Wider narrow wide)
    {samples : List ClockSample} (haccepts : narrow.AcceptsAll samples)
    (hno : .error .arithmeticOverflow ∉ wide.outcomes samples) :
    wide.AcceptsAll samples ∧ Wider (narrow.pushAll samples) (wide.pushAll samples) := by
  induction samples generalizing narrow wide with
  | nil =>
    refine ⟨?_, h⟩
    intro outcome hmem
    cases hmem
  | cons sample later ih =>
    obtain ⟨haccept, hlater⟩ := List.forall_mem_cons.mp haccepts
    rw [outcomes, List.mem_cons, not_or] at hno
    obtain ⟨hfirst, hrest⟩ := hno
    rcases hcheck : narrow.check sample with e | ⟨observation, next⟩
    · rw [push_of_error hcheck] at haccept
      cases haccept
    obtain ⟨⟨estimate, haccept'⟩, hwider⟩ := h.push hcheck (Ne.symm hfirst)
    obtain ⟨hlater', hlast⟩ := ih hwider hlater hrest
    refine ⟨List.forall_mem_cons.mpr ⟨?_, hlater'⟩, hlast⟩
    rw [haccept']
    rfl

/-- With a larger slew bound a session accepts the same samples, unless it overflows, and has
wider windows. -/
theorem slew_monotone {maxSlewPpb widerPpb : I128} (hslew : maxSlewPpb.val ≤ widerPpb.val)
    {narrow wide : ClockSync} (hnarrow : new maxSlewPpb = .ok narrow)
    (hwide : new widerPpb = .ok wide) {samples : List ClockSample}
    (haccepts : narrow.AcceptsAll samples)
    (hno : .error .arithmeticOverflow ∉ wide.outcomes samples) :
    wide.AcceptsAll samples ∧
      ∀ host window wideWindow, (narrow.pushAll samples).controllerWindow host = .ok window →
        (wide.pushAll samples).controllerWindow host = .ok wideWindow →
        wideWindow.earliest.ticks ≤ window.earliest.ticks ∧
          window.latest.ticks ≤ wideWindow.latest.ticks := by
  obtain ⟨hall, hwider⟩ := (wider_of_new hnarrow hwide hslew).pushAll haccepts hno
  refine ⟨hall, ?_⟩
  intro host window wideWindow hwindow hwideWindow
  exact hwider.window hwindow hwideWindow

/-- One and two parts in a thousand. -/
theorem slew_monotone_fast_clock :
    let samples : List ClockSample := [⟨⟨10⟩, ⟨11⟩, ⟨11⟩, ⟨10⟩⟩, ⟨⟨2000⟩, ⟨2003⟩, ⟨2003⟩, ⟨2000⟩⟩]
    ∃ narrow wide window wideWindow, new ⟨1000000, by decide, by decide⟩ = .ok narrow ∧
      new ⟨2000000, by decide, by decide⟩ = .ok wide ∧ wide.AcceptsAll samples ∧
      (narrow.pushAll samples).controllerWindow ⟨5000⟩ = .ok window ∧
      (wide.pushAll samples).controllerWindow ⟨5000⟩ = .ok wideWindow ∧
      wideWindow.earliest.ticks ≤ window.earliest.ticks ∧
      window.latest.ticks ≤ wideWindow.latest.ticks := by
  intro samples
  have hmonotone := @slew_monotone ⟨1000000, by decide, by decide⟩ ⟨2000000, by decide, by decide⟩
    (by decide) ⟨⟨1000000, by decide, by decide⟩, none, none, none, none, by decide⟩
    ⟨⟨2000000, by decide, by decide⟩, none, none, none, none, by decide⟩ rfl rfl samples
    (by decide +kernel) (by decide +kernel)
  refine ⟨_, _, ⟨⟨5000⟩, ⟨5003⟩, ⟨5007⟩⟩, ⟨⟨4997⟩, ⟨5003⟩, ⟨5009⟩⟩, rfl, rfl, hmonotone.1, ?_, ?_,
    hmonotone.2 ⟨5000⟩ _ _ ?_ ?_⟩ <;> decide +kernel

end ClockSync

end Dryer.Clock
