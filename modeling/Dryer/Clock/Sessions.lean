import Dryer.Clock.Acceptance

/-!
# Clock sessions

What the state of an estimator says about the samples it has accepted, after any pushes of
any samples. A rejected sample leaves no trace.
-/
namespace Dryer.Clock
open Library

/-! ## Drift -/

/-- Rounding to the nearest lies between rounding down and rounding up. -/
theorem divRoundNearestTiesAway_between {numerator denominator quotient : I128}
    (hd : 0 < denominator.val)
    (h : divRoundNearestTiesAway numerator denominator = .ok quotient) :
    numerator.val / denominator.val ≤ quotient.val ∧
      quotient.val ≤ ceilDiv numerator.val denominator.val := by
  obtain ⟨q, r, hq, hr, hqval, hrval⟩ := exists_checkedDiv numerator hd
  have hfloor := ediv_eq_tdiv numerator.val hd
  have hceil := ceilDiv_eq_tdiv numerator.val hd
  rw [← hqval, ← hrval] at hfloor hceil
  simp only [divRoundNearestTiesAway, bind_eq_ok, checked_eq_ok] at h
  obtain ⟨q', hq', r', hr', magnitude, hmagnitude, h⟩ := h
  rw [hq] at hq'
  rw [hr] at hr'
  cases hq'
  cases hr'
  have hlarge : magnitude.val = (r.val.natAbs : ℤ) * 2 := by
    obtain ⟨absolute, habs, hdouble⟩ := Option.bind_eq_some_iff.mp hmagnitude
    rw [BoundedInt.checkedMul_eq_some] at hdouble
    rw [hdouble, BoundedInt.ofInt?_eq_some.mp habs]
    rfl
  have hsign : (numerator.val < 0 → r.val ≤ 0) ∧ (0 ≤ numerator.val → 0 ≤ r.val) := by
    rw [hrval]
    constructor
    · intro hneg
      have hpos := Int.tmod_nonneg denominator.val (show 0 ≤ -numerator.val by omega)
      rw [Int.neg_tmod] at hpos
      omega
    · exact Int.tmod_nonneg denominator.val
  rw [hfloor, hceil]
  split at h
  · cases h
    grind
  -- the remainder is not zero, so the quotient is rounded the way its sign says
  split at h
  · have hquotient := BoundedInt.checkedSub_eq_some.mp (checked_eq_ok.mp h)
    rw [I128.one_val] at hquotient
    grind
  · have hquotient := BoundedInt.checkedAdd_eq_some.mp (checked_eq_ok.mp h)
    rw [I128.one_val] at hquotient
    grind

/-- What a drift estimate says about the observations at its ends. -/
structure Drifts (previous current : OffsetObservation) (drift : DriftEstimate) : Prop where
  baseline : current.referenceHost.ticks.toNat =
    drift.baselineTicks.toNat + previous.referenceHost.ticks.toNat
  later : 0 < (drift.baselineTicks.toNat : ℤ)
  low : drift.minPpb.val =
    (current.offsetMinTicks.val - previous.offsetMaxTicks.val) * partsPerBillion.val /
      drift.baselineTicks.toNat
  high : drift.maxPpb.val =
    ceilDiv ((current.offsetMaxTicks.val - previous.offsetMinTicks.val) * partsPerBillion.val)
      drift.baselineTicks.toNat
  point_low : (current.offsetTicks.val - previous.offsetTicks.val) * partsPerBillion.val /
      drift.baselineTicks.toNat ≤ drift.ppb.val
  point_high : drift.ppb.val ≤
    ceilDiv ((current.offsetTicks.val - previous.offsetTicks.val) * partsPerBillion.val)
      drift.baselineTicks.toNat

theorem estimateDrift_drifts {previous current : OffsetObservation} {drift : DriftEstimate}
    (h : estimateDrift previous current = .ok drift) : Drifts previous current drift := by
  simp only [estimateDrift, bind_eq_ok, checked_eq_ok, okOr_eq_ok, Option.filter_eq_some_iff,
    U64.checkedSub_eq_some, BoundedInt.checkedSub_eq_some, BoundedInt.checkedMul_eq_some] at h
  obtain ⟨baseline, ⟨hbaseline, hnonzero⟩, point, hpoint, minimum, hminimum, maximum, hmaximum,
    pointScaled, hpointScaled, ppb, hppb, minimumScaled, hminimumScaled, minPpb, hminPpb,
    maximumScaled, hmaximumScaled, maxPpb, hmaxPpb, hresult⟩ := h
  cases hresult
  have hd : 0 < (I128.ofUInt64 baseline).val := by
    have hne : baseline.toNat ≠ 0 := by
      intro hzero
      exact absurd (UInt64.toNat_inj.mp hzero) (by simpa using hnonzero)
    rw [I128.ofUInt64_val]
    omega
  obtain ⟨hlow, hhigh⟩ := divRoundNearestTiesAway_between hd hppb
  rw [divFloor_eq_ok hd] at hminPpb
  rw [divCeil_eq_ok hd] at hmaxPpb
  rw [hpointScaled, hpoint] at hlow hhigh
  rw [hminimumScaled, hminimum] at hminPpb
  rw [hmaximumScaled, hmaximum] at hmaxPpb
  exact ⟨hbaseline, hd, hminPpb, hmaxPpb, hlow, hhigh⟩

/-- The offset of an observation lies in its interval. -/
def OffsetOrdered (observation : OffsetObservation) : Prop :=
  observation.offsetMinTicks.val ≤ observation.offsetTicks.val ∧
    observation.offsetTicks.val ≤ observation.offsetMaxTicks.val

/-- The drift of an estimate lies between its bounds. -/
def DriftOrdered (drift : DriftEstimate) : Prop :=
  drift.minPpb.val ≤ drift.ppb.val ∧ drift.ppb.val ≤ drift.maxPpb.val

theorem Observes.offsetOrdered {sample : ClockSample} {slewPpb : ℤ}
    {observation : OffsetObservation} (h : Observes sample slewPpb observation) :
    OffsetOrdered observation := by
  have hordered := h.ordered
  have hmidpoint := h.midpoint
  constructor <;> omega

theorem Drifts.driftOrdered {previous current : OffsetObservation} {drift : DriftEstimate}
    (h : Drifts previous current drift) (hprevious : OffsetOrdered previous)
    (hcurrent : OffsetOrdered current) : DriftOrdered drift := by
  have hunit : 0 ≤ partsPerBillion.val := by decide
  constructor
  · calc drift.minPpb.val = _ := h.low
      _ ≤ _ := Int.ediv_le_ediv h.later (mul_le_mul_of_nonneg_right
          (sub_le_sub hcurrent.1 hprevious.2) hunit)
      _ ≤ drift.ppb.val := h.point_low
  · calc drift.ppb.val ≤ _ := h.point_high
      _ ≤ _ := ceilDiv_mono h.later (mul_le_mul_of_nonneg_right
          (sub_le_sub hcurrent.2 hprevious.1) hunit)
      _ = drift.maxPpb.val := h.high.symm

/-! ## Histories -/

namespace ClockSync

/-- The samples that a session accepts, each with the observation it makes of it. -/
def accepted (sync : ClockSync) : List ClockSample → List (ClockSample × OffsetObservation)
  | [] => []
  | sample :: later =>
    match sync.check sample with
    | .ok (observation, _) => (sample, observation) :: accepted (sync.push sample).2 later
    | .error _ => accepted (sync.push sample).2 later

theorem push_of_ok {sync : ClockSync} {sample : ClockSample} {observation : OffsetObservation}
    {estimate : Option ClockEstimate} (h : sync.check sample = .ok (observation, estimate)) :
    sync.push sample = (.ok (estimate <|> sync.estimate), { sync with
      sessionStart := sync.sessionStart <|> some observation.referenceHost
      previous := some observation
      lastRaw := some sample
      estimate := estimate <|> sync.estimate }) := by
  rw [push, h]

theorem push_of_error {sync : ClockSync} {sample : ClockSample} {e : ClockSyncError}
    (h : sync.check sample = .error e) : sync.push sample = (.error e, sync) := by
  rw [push, h]

/-- A sample that is rejected leaves the state as it was. -/
theorem push_eq_of_error {sync next : ClockSync} {sample : ClockSample} {e : ClockSyncError}
    (h : sync.push sample = (.error e, next)) : next = sync := by
  rcases hcheck : sync.check sample with e' | ⟨observation, estimate⟩
  · rw [push_of_error hcheck] at h
    cases h
    rfl
  · rw [push_of_ok hcheck] at h
    cases h

/-- One accepted sample before another. -/
structure Before (x y : ClockSample × OffsetObservation) : Prop where
  hostSend : x.1.hostSend.ticks ≤ y.1.hostSend.ticks
  controllerReceive : x.1.controllerReceive.ticks ≤ y.1.controllerReceive.ticks
  controllerSend : x.1.controllerSend.ticks ≤ y.1.controllerSend.ticks
  hostReceive : x.1.hostReceive.ticks ≤ y.1.hostReceive.ticks
  reference : x.2.referenceHost.ticks < y.2.referenceHost.ticks

theorem Before.trans {x y z : ClockSample × OffsetObservation} (h : Before x y)
    (h' : Before y z) : Before x z where
  hostSend := UInt64.le_trans h.hostSend h'.hostSend
  controllerReceive := UInt64.le_trans h.controllerReceive h'.controllerReceive
  controllerSend := UInt64.le_trans h.controllerSend h'.controllerSend
  hostReceive := UInt64.le_trans h.hostReceive h'.hostReceive
  reference := UInt64.lt_trans h.reference h'.reference

/-- What passes every check, and what it is checked against. -/
structure Checked (sync : ClockSync) (sample : ClockSample) (observation : OffsetObservation)
    (estimate : Option ClockEstimate) : Prop where
  observes : observeBounded sample sync.maxSlewPpb = .ok observation
  ordered : ∀ last, sync.lastRaw = some last → requireOrdered last sample = .ok ()
  first : sync.previous = none → estimate = none
  next : ∀ previous, sync.previous = some previous →
    previous.referenceHost.ticks < observation.referenceHost.ticks ∧
      ∃ drift, estimateDrift previous observation = .ok drift ∧
        estimate = some ⟨observation, drift, sample.hostReceive⟩

/-- The two matches of a check, as case distinctions on what the session holds. -/
theorem check_eq (sync : ClockSync) (sample : ClockSample) : sync.check sample = (do
    let observation ← observeBounded sample sync.maxSlewPpb
    sync.lastRaw.elim (pure ()) (requireOrdered · sample)
    sync.previous.elim (pure (observation, none)) fun previous => do
      reject (observation.referenceHost.ticks ≤ previous.referenceHost.ticks)
        .insufficientSeparation
      let drift ← estimateDrift previous observation
      pure (observation, some ⟨observation, drift, sample.hostReceive⟩)) := by
  unfold check
  cases sync.lastRaw <;> cases sync.previous <;> rfl

theorem checked_of_check {sync : ClockSync} {sample : ClockSample}
    {observation : OffsetObservation} {estimate : Option ClockEstimate}
    (h : sync.check sample = .ok (observation, estimate)) :
    sync.Checked sample observation estimate := by
  rw [check_eq] at h
  obtain ⟨observation', hobserve, h⟩ := bind_eq_ok.mp h
  obtain ⟨_, hraw, hrest⟩ := bind_eq_ok.mp h
  have hordered : ∀ last, sync.lastRaw = some last → requireOrdered last sample = .ok () := by
    intro last hlast
    rw [hlast] at hraw
    exact hraw
  cases hprevious : sync.previous with
  | none =>
    rw [hprevious] at hrest
    cases hrest
    refine ⟨hobserve, hordered, fun _ => rfl, ?_⟩
    intro previous hsome
    rw [hprevious] at hsome
    cases hsome
  | some previous =>
    rw [hprevious] at hrest
    simp only [Option.elim_some, bind_eq_ok, reject_eq_ok, UInt64.not_le] at hrest
    obtain ⟨_, hlater, drift, hdrift, hresult⟩ := hrest
    cases hresult
    refine ⟨hobserve, hordered, ?_, ?_⟩
    · intro hnone
      rw [hprevious] at hnone
      cases hnone
    · intro previous' hsome
      rw [hprevious] at hsome
      cases hsome
      exact ⟨hlater, drift, hdrift, rfl⟩

/-- What a session holds after the samples it has accepted. -/
structure History (done : List (ClockSample × OffsetObservation)) (sync : ClockSync) : Prop where
  lastRaw : sync.lastRaw = done.getLast?.map Prod.fst
  previous : sync.previous = done.getLast?.map Prod.snd
  sessionStart : sync.sessionStart = done.head?.map fun x => x.2.referenceHost
  estimated : sync.estimate.isSome ↔ 2 ≤ done.length
  anchored : ∀ estimate, sync.estimate = some estimate →
    sync.previous = some estimate.anchor ∧ DriftOrdered estimate.drift
  observed : ∀ x ∈ done, Observes x.1 sync.maxSlewPpb.val x.2
  ordered : done.Pairwise Before

theorem history_of_new {maxSlewPpb : I128} {sync : ClockSync} (h : new maxSlewPpb = .ok sync) :
    History [] sync := by
  unfold new at h
  split at h
  · cases h
  · cases h
    exact ⟨rfl, rfl, rfl, by simp, by simp, by simp, List.Pairwise.nil⟩

theorem before_of_checked {sync : ClockSync} {last sample : ClockSample}
    {previous observation : OffsetObservation} {estimate : Option ClockEstimate}
    (hlast : sync.lastRaw = some last) (hprevious : sync.previous = some previous)
    (h : sync.Checked sample observation estimate) :
    Before (last, previous) (sample, observation) := by
  have hordered := h.ordered last hlast
  simp only [requireOrdered, bind_eq_ok, reject_eq_ok, not_or, UInt64.not_lt] at hordered
  obtain ⟨_, ⟨hsend, hreceive⟩, hcreceive, hcsend⟩ := hordered
  exact ⟨hsend, hcreceive, hcsend, hreceive, (h.next previous hprevious).1⟩

/-- An accepted sample is added to the history. -/
theorem History.accept {done : List (ClockSample × OffsetObservation)} {sync : ClockSync}
    (h : History done sync) {sample : ClockSample} {observation : OffsetObservation}
    {estimate : Option ClockEstimate} (hcheck : sync.check sample = .ok (observation, estimate)) :
    History (done ++ [(sample, observation)]) (sync.push sample).2 := by
  have hchecked := checked_of_check hcheck
  have hobserves := observeBounded_observes hchecked.observes
  rw [push_of_ok hcheck]
  rcases List.eq_nil_or_concat done with rfl | ⟨front, ⟨last, previous⟩, rfl⟩
  · have hnone : estimate = none := hchecked.first h.previous
    have hempty : sync.estimate = none := by simpa using h.estimated
    have hstart : sync.sessionStart = none := h.sessionStart
    refine ⟨rfl, rfl, ?_, ?_, ?_, ?_, List.pairwise_singleton _ _⟩
    · rw [hstart]
      rfl
    · simp [hnone, hempty]
    · simp [hnone, hempty]
    · simpa using hobserves
  · have hlast : sync.lastRaw = some last := by simpa using h.lastRaw
    have hprevious : sync.previous = some previous := by simpa using h.previous
    obtain ⟨-, drift, hdrift, rfl⟩ := hchecked.next previous hprevious
    have hbefore := before_of_checked hlast hprevious hchecked
    have hobserved : Observes last sync.maxSlewPpb.val previous :=
      h.observed (last, previous) (by simp)
    refine ⟨by simp, by simp, ?_, by simp, ?_, ?_, ?_⟩
    · rw [h.sessionStart]
      cases front <;> rfl
    · intro estimate hestimate
      cases hestimate
      exact ⟨rfl, (estimateDrift_drifts hdrift).driftOrdered hobserved.offsetOrdered
        hobserves.offsetOrdered⟩
    · intro x hx
      rcases List.mem_append.mp hx with hx | hx
      · exact h.observed x hx
      · obtain rfl := List.mem_singleton.mp hx
        exact hobserves
    · rw [List.pairwise_append]
      refine ⟨h.ordered, List.pairwise_singleton _ _, ?_⟩
      intro x hx y hy
      obtain rfl := List.mem_singleton.mp hy
      -- everything accepted is the last sample or before it
      rcases List.mem_append.mp (List.concat_eq_append ▸ hx) with hx' | hx'
      · have hfront := List.pairwise_append.mp (List.concat_eq_append ▸ h.ordered)
        exact (hfront.2.2 x hx' _ (List.mem_singleton_self _)).trans hbefore
      · obtain rfl := List.mem_singleton.mp hx'
        exact hbefore

theorem History.pushAll {done : List (ClockSample × OffsetObservation)} {sync : ClockSync}
    (h : History done sync) (samples : List ClockSample) :
    History (done ++ sync.accepted samples) (sync.pushAll samples) := by
  induction samples generalizing done sync with
  | nil =>
    rw [accepted, List.append_nil]
    exact h
  | cons sample later ih =>
    rw [accepted]
    rcases hcheck : sync.check sample with e | ⟨observation, estimate⟩
    · have hsame : (sync.push sample).2 = sync := by rw [push_of_error hcheck]
      change History (done ++ (sync.push sample).2.accepted later)
        ((sync.push sample).2.pushAll later)
      rw [hsame]
      exact ih h
    · have hstep := ih (h.accept hcheck)
      rw [List.append_assoc] at hstep
      exact hstep

/-- The state of a session agrees with the samples it has accepted. -/
structure Consistent (done : List (ClockSample × OffsetObservation)) (sync : ClockSync) :
    Prop where
  started : ∀ previous, sync.previous = some previous →
    ∃ start, sync.sessionStart = some start ∧ start.ticks ≤ previous.referenceHost.ticks
  estimated : sync.estimate.isSome ↔ 2 ≤ done.length
  anchored : ∀ estimate, sync.estimate = some estimate → sync.previous = some estimate.anchor
  offsets : ∀ previous, sync.previous = some previous → OffsetOrdered previous
  drifts : ∀ estimate, sync.estimate = some estimate → DriftOrdered estimate.drift
  ordered : done.Pairwise Before

theorem History.consistent {done : List (ClockSample × OffsetObservation)} {sync : ClockSync}
    (h : History done sync) : Consistent done sync where
  started := by
    intro previous hprevious
    rw [h.previous] at hprevious
    obtain ⟨last, hlast, rfl⟩ := Option.map_eq_some_iff.mp hprevious
    rcases done with _ | ⟨first, later⟩
    · cases hlast
    refine ⟨first.2.referenceHost, h.sessionStart, ?_⟩
    -- the last sample is the first one or comes after it
    rcases List.mem_cons.mp (List.mem_of_getLast? hlast) with rfl | hmem
    · exact UInt64.le_refl _
    · exact UInt64.le_of_lt ((List.pairwise_cons.mp h.ordered).1 last hmem).reference
  estimated := h.estimated
  anchored := fun estimate hestimate => (h.anchored estimate hestimate).1
  offsets := by
    intro previous hprevious
    rw [h.previous] at hprevious
    obtain ⟨last, hlast, rfl⟩ := Option.map_eq_some_iff.mp hprevious
    exact (h.observed last (List.mem_of_getLast? hlast)).offsetOrdered
  drifts := fun estimate hestimate => (h.anchored estimate hestimate).2
  ordered := h.ordered

/-- In every session, whatever samples are pushed, the state is consistent with the accepted
ones, and a push that returns an error has changed nothing. -/
theorem sessions_are_consistent {maxSlewPpb : I128} {start : ClockSync}
    (hnew : new maxSlewPpb = .ok start) (samples : List ClockSample) :
    Consistent (start.accepted samples) (start.pushAll samples) ∧
      ∀ sample e next, (start.pushAll samples).push sample = (.error e, next) →
        next = start.pushAll samples := by
  constructor
  · exact ((history_of_new hnew).pushAll samples).consistent
  · intro sample e next h
    exact push_eq_of_error h

/-- A session that accepts the first and the third sample, the second being before the first. -/
theorem sessions_are_consistent_fast_clock :
    let samples : List ClockSample :=
      [⟨⟨10⟩, ⟨11⟩, ⟨11⟩, ⟨10⟩⟩, ⟨⟨9⟩, ⟨11⟩, ⟨11⟩, ⟨9⟩⟩, ⟨⟨2000⟩, ⟨2003⟩, ⟨2003⟩, ⟨2000⟩⟩]
    ∃ start, new ⟨1000000, by decide, by decide⟩ = .ok start ∧
      (start.accepted samples).length = 2 ∧
      Consistent (start.accepted samples) (start.pushAll samples) :=
  ⟨⟨⟨1000000, by decide, by decide⟩, none, none, none, none, by decide⟩, rfl,
    by decide +kernel, (@sessions_are_consistent ⟨1000000, by decide, by decide⟩ _ rfl _).1⟩

end ClockSync

end Dryer.Clock
