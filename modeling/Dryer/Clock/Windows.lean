import Dryer.Clock.Sessions

/-!
# Windows of a session

The window and the uncertainty of a host tick come from the same three projected ticks. The
window holds its estimate, and it only grows with the distance from the anchor.
-/
namespace Dryer.Clock
open Library

/-! ## The width of a projection -/

theorem ceilDiv_nonneg {n d : ℤ} (hd : 0 < d) (hn : 0 ≤ n) : 0 ≤ ceilDiv n d := by
  rw [le_ceilDiv_iff hd]
  omega

theorem ediv_nonpos {n d : ℤ} (hd : 0 < d) (hn : n ≤ 0) : n / d ≤ 0 :=
  Int.ediv_le_of_le_mul hd (by omega)

/-- How far two rates, one on each side of zero, draw apart over a span. -/
def spread (lowRate highRate span : ℤ) : ℤ :=
  ceilDiv (span * highRate) partsPerBillion.val - span * lowRate / partsPerBillion.val

theorem spread_nonneg {lowRate highRate span : ℤ} (hlow : lowRate ≤ 0) (hhigh : 0 ≤ highRate)
    (hspan : 0 ≤ span) : 0 ≤ spread lowRate highRate span := by
  have hunit : 0 < partsPerBillion.val := by decide
  have hup := ceilDiv_nonneg hunit (mul_nonneg hspan hhigh)
  have hdown := ediv_nonpos hunit (mul_nonpos_of_nonneg_of_nonpos hspan hlow)
  unfold spread
  omega

theorem spread_mono {lowRate highRate near far : ℤ} (hlow : lowRate ≤ 0) (hhigh : 0 ≤ highRate)
    (hspan : near ≤ far) : spread lowRate highRate near ≤ spread lowRate highRate far := by
  have hunit : 0 < partsPerBillion.val := by decide
  have hup := ceilDiv_mono hunit (mul_le_mul_of_nonneg_right hspan hhigh)
  have hdown := Int.ediv_le_ediv hunit (mul_le_mul_of_nonpos_right hspan hlow)
  unfold spread
  omega

namespace ClockSync

theorem project_midpoint {sync : ClockSync} {host : HostTick} {low midpoint high : I128}
    (h : sync.project host = .ok (low, midpoint, high)) :
    midpoint.val = low.val + (high.val - low.val).tdiv 2 := by
  simp only [project, bind_eq_ok, checked_eq_ok, BoundedInt.checkedAdd_eq_some,
    BoundedInt.checkedSub_eq_some] at h
  obtain ⟨_, -, _, -, _, -, elapsed, -, _, -, h⟩ := h
  by_cases hsign : elapsed.val < 0
  · simp only [hsign, if_true] at h
    obtain ⟨_, -, _, -, _, -, _, -, _, -, _, -, _, -, _, -, width, hwidth, middle, hmiddle,
      hresult⟩ := h
    cases hresult
    rw [hmiddle, I128.quot_val, hwidth]
    rfl
  · simp only [hsign, if_false] at h
    obtain ⟨_, -, _, -, _, -, _, -, _, -, _, -, _, -, _, -, width, hwidth, middle, hmiddle,
      hresult⟩ := h
    cases hresult
    rw [hmiddle, I128.quot_val, hwidth]
    rfl

/-- The rates between which a session projects an estimate. -/
def minimumPpb (sync : ClockSync) (estimate : ClockEstimate) : ℤ :=
  min estimate.drift.minPpb.val (-sync.maxSlewPpb.val)

def maximumPpb (sync : ClockSync) (estimate : ClockEstimate) : ℤ :=
  max estimate.drift.maxPpb.val sync.maxSlewPpb.val

theorem minimumPpb_nonpos (sync : ClockSync) (estimate : ClockEstimate) :
    sync.minimumPpb estimate ≤ 0 := by
  have hslew := sync.slewNonneg
  unfold minimumPpb
  omega

theorem maximumPpb_nonneg (sync : ClockSync) (estimate : ClockEstimate) :
    0 ≤ sync.maximumPpb estimate := by
  have hslew := sync.slewNonneg
  unfold maximumPpb
  omega

/-- The width of a projection: that of the anchor, and what the rates add over the distance. -/
theorem Projects.width {sync : ClockSync} {estimate : ClockEstimate} {elapsed low high : ℤ}
    (h : sync.Projects estimate elapsed low high) :
    high - low = estimate.anchor.offsetMaxTicks.val - estimate.anchor.offsetMinTicks.val +
      spread (sync.minimumPpb estimate) (sync.maximumPpb estimate) |elapsed| := by
  rcases le_or_gt 0 elapsed with hforward | hbackward
  · obtain ⟨hlow, hhigh⟩ := h.forward hforward
    rw [hlow, hhigh, abs_of_nonneg hforward, spread, minimumPpb, maximumPpb]
    ring
  · obtain ⟨hlow, hhigh⟩ := h.backward hbackward
    rw [hlow, hhigh, abs_of_neg hbackward, spread, minimumPpb, maximumPpb]
    unfold ceilDiv
    rw [neg_mul, neg_mul, neg_neg]
    ring

/-- The three ticks of a projection are in order, the middle one at half the width. -/
theorem project_ordered {sync : ClockSync}
    (hordered : ∀ estimate, sync.estimate = some estimate → OffsetOrdered estimate.anchor)
    {host : HostTick} {low midpoint high : I128}
    (h : sync.project host = .ok (low, midpoint, high)) :
    low.val ≤ high.val ∧ midpoint.val = low.val + (high.val - low.val) / 2 := by
  obtain ⟨estimate, hestimate, hprojects⟩ := project_projects h
  obtain ⟨hlow, hhigh⟩ := hordered estimate hestimate
  have hwidth := hprojects.width
  have hspread := spread_nonneg (sync.minimumPpb_nonpos estimate)
    (sync.maximumPpb_nonneg estimate) (abs_nonneg
      ((host.ticks.toNat : ℤ) - estimate.anchor.referenceHost.ticks.toNat))
  have hle : low.val ≤ high.val := by omega
  refine ⟨hle, ?_⟩
  rw [project_midpoint h, Int.tdiv_eq_ediv_of_nonneg (by omega)]

theorem controllerWindow_eq_ok {sync : ClockSync} {host : HostTick} {window : ControllerWindow} :
    sync.controllerWindow host = .ok window ↔ ∃ low midpoint high,
      sync.project host = .ok (low, midpoint, high) ∧ low.val = window.earliest.ticks.toNat ∧
        midpoint.val = window.estimate.ticks.toNat ∧ high.val = window.latest.ticks.toNat := by
  simp only [controllerWindow, bind_eq_ok, toU64_eq_ok]
  constructor
  · rintro ⟨⟨low, midpoint, high⟩, hproject, earliest, hearliest, middle, hmiddle, latest, hlatest,
      hwindow⟩
    cases hwindow
    exact ⟨low, midpoint, high, hproject, hearliest, hmiddle, hlatest⟩
  · intro ⟨low, midpoint, high, hproject, hearliest, hmiddle, hlatest⟩
    exact ⟨(low, midpoint, high), hproject, _, hearliest, _, hmiddle, _, hlatest, rfl⟩

/-- There is an uncertainty exactly where there is a window, and it is half its width. -/
theorem uncertaintyAt_eq_ok {sync : ClockSync}
    (hordered : ∀ estimate, sync.estimate = some estimate → OffsetOrdered estimate.anchor)
    {host : HostTick} {uncertainty : UInt64} :
    sync.uncertaintyAt host = .ok uncertainty ↔ ∃ window,
      sync.controllerWindow host = .ok window ∧
        (uncertainty.toNat : ℤ) =
          ceilDiv (window.latest.ticks.toNat - window.earliest.ticks.toNat) 2 := by
  simp only [uncertaintyAt, controllerWindow_eq_ok, bind_eq_ok, toU64_eq_ok, checked_eq_ok,
    BoundedInt.checkedSub_eq_some, BoundedInt.max_val]
  constructor
  · rintro ⟨⟨low, midpoint, high⟩, hproject, earliest, hearliest, middle, hmiddle, latest, hlatest,
      below, hbelow, above, habove, huncertainty⟩
    obtain ⟨hle, hmid⟩ := project_ordered hordered hproject
    refine ⟨⟨⟨earliest⟩, ⟨middle⟩, ⟨latest⟩⟩,
      ⟨low, midpoint, high, hproject, hearliest, hmiddle, hlatest⟩, ?_⟩
    unfold ceilDiv
    simp only at *
    omega
  · rintro ⟨window, ⟨low, midpoint, high, hproject, hearliest, hmiddle, hlatest⟩, huncertainty⟩
    obtain ⟨hle, hmid⟩ := project_ordered hordered hproject
    have hearly := window.earliest.ticks.toNat_lt
    have hlate := window.latest.ticks.toNat_lt
    unfold ceilDiv at huncertainty
    refine ⟨(low, midpoint, high), hproject, _, hearliest, _, hmiddle, _, hlatest,
      ⟨midpoint.val - low.val, by omega, by omega⟩, rfl,
      ⟨high.val - midpoint.val, by omega, by omega⟩, rfl, ?_⟩
    simp only
    omega

/-- Further from the anchor, on the same side of it, the uncertainty is no smaller. -/
theorem uncertaintyAt_mono {sync : ClockSync}
    (hordered : ∀ estimate, sync.estimate = some estimate → OffsetOrdered estimate.anchor)
    {estimate : ClockEstimate} (hestimate : sync.estimate = some estimate)
    {near far : HostTick} {nearUncertainty farUncertainty : UInt64}
    (hnear : sync.uncertaintyAt near = .ok nearUncertainty)
    (hfar : sync.uncertaintyAt far = .ok farUncertainty)
    (hdistance : |(near.ticks.toNat : ℤ) - estimate.anchor.referenceHost.ticks.toNat| ≤
      |(far.ticks.toNat : ℤ) - estimate.anchor.referenceHost.ticks.toNat|) :
    nearUncertainty ≤ farUncertainty := by
  obtain ⟨nearWindow, hnearWindow, hnearHalf⟩ := (uncertaintyAt_eq_ok hordered).mp hnear
  obtain ⟨farWindow, hfarWindow, hfarHalf⟩ := (uncertaintyAt_eq_ok hordered).mp hfar
  obtain ⟨low, _, high, hproject, hlow, -, hhigh⟩ := controllerWindow_eq_ok.mp hnearWindow
  obtain ⟨low', _, high', hproject', hlow', -, hhigh'⟩ := controllerWindow_eq_ok.mp hfarWindow
  obtain ⟨e, he, hprojects⟩ := project_projects hproject
  obtain ⟨e', he', hprojects'⟩ := project_projects hproject'
  rw [hestimate] at he he'
  cases he
  cases he'
  have hwidth := hprojects.width
  have hwidth' := hprojects'.width
  have hspread := spread_mono (sync.minimumPpb_nonpos estimate)
    (sync.maximumPpb_nonneg estimate) hdistance
  rw [UInt64.le_iff_toNat_le]
  unfold ceilDiv at hnearHalf hfarHalf
  omega

/-- In every session: a host tick has a window exactly when it has an uncertainty; the window
holds its estimate and the uncertainty is half its width, rounded up; and the uncertainty does
not shrink as the tick moves away from the anchor, forwards or backwards. -/
theorem windows_are_coherent {maxSlewPpb : I128} {start : ClockSync}
    (hnew : new maxSlewPpb = .ok start) (samples : List ClockSample) :
    (∀ host, (∃ window, (start.pushAll samples).controllerWindow host = .ok window) ↔
      ∃ uncertainty, (start.pushAll samples).uncertaintyAt host = .ok uncertainty) ∧
    (∀ host window uncertainty, (start.pushAll samples).controllerWindow host = .ok window →
      (start.pushAll samples).uncertaintyAt host = .ok uncertainty →
      window.earliest.ticks ≤ window.estimate.ticks ∧
        window.estimate.ticks ≤ window.latest.ticks ∧
        (uncertainty.toNat : ℤ) =
          ceilDiv (window.latest.ticks.toNat - window.earliest.ticks.toNat) 2) ∧
    ∀ estimate, (start.pushAll samples).estimate = some estimate →
      ∀ near far nearUncertainty farUncertainty,
        (start.pushAll samples).uncertaintyAt near = .ok nearUncertainty →
        (start.pushAll samples).uncertaintyAt far = .ok farUncertainty →
        (estimate.anchor.referenceHost.ticks ≤ near.ticks ∧ near.ticks ≤ far.ticks ∨
          far.ticks ≤ near.ticks ∧ near.ticks ≤ estimate.anchor.referenceHost.ticks) →
        nearUncertainty ≤ farUncertainty := by
  have hhistory := (history_of_new hnew).pushAll samples
  set sync := start.pushAll samples
  have hordered : ∀ estimate, sync.estimate = some estimate → OffsetOrdered estimate.anchor := by
    intro estimate hestimate
    exact hhistory.consistent.offsets _ (hhistory.anchored estimate hestimate).1
  refine ⟨?_, ?_, ?_⟩
  · intro host
    constructor
    · intro ⟨window, hwindow⟩
      obtain ⟨low, midpoint, high, hproject, hlow, -, hhigh⟩ := controllerWindow_eq_ok.mp hwindow
      have hle := (project_ordered hordered hproject).1
      have hlt := window.latest.ticks.toNat_lt
      have hhalf : ((UInt64.ofNat ((window.latest.ticks.toNat - window.earliest.ticks.toNat + 1) /
          2)).toNat : ℤ) =
          ceilDiv (window.latest.ticks.toNat - window.earliest.ticks.toNat) 2 := by
        rw [UInt64.toNat_ofNat_of_lt' (by simp only [UInt64.size]; omega)]
        unfold ceilDiv
        omega
      exact ⟨_, (uncertaintyAt_eq_ok hordered).mpr ⟨window, hwindow, hhalf⟩⟩
    · intro ⟨uncertainty, huncertainty⟩
      obtain ⟨window, hwindow, -⟩ := (uncertaintyAt_eq_ok hordered).mp huncertainty
      exact ⟨window, hwindow⟩
  · intro host window uncertainty hwindow huncertainty
    obtain ⟨window', hwindow', hhalf⟩ := (uncertaintyAt_eq_ok hordered).mp huncertainty
    rw [hwindow] at hwindow'
    cases hwindow'
    obtain ⟨low, midpoint, high, hproject, hlow, hmid, hhigh⟩ := controllerWindow_eq_ok.mp hwindow
    obtain ⟨hle, hmiddle⟩ := project_ordered hordered hproject
    rw [UInt64.le_iff_toNat_le, UInt64.le_iff_toNat_le]
    refine ⟨by omega, by omega, hhalf⟩
  · intro estimate hestimate near far nearUncertainty farUncertainty hnear hfar hside
    apply uncertaintyAt_mono hordered hestimate hnear hfar
    simp only [UInt64.le_iff_toNat_le] at hside
    rcases hside with hside | hside
    · rw [abs_of_nonneg (by omega), abs_of_nonneg (by omega)]
      omega
    · rw [abs_of_nonpos (by omega), abs_of_nonpos (by omega)]
      omega

theorem windows_are_coherent_fast_clock :
    let samples : List ClockSample := [⟨⟨10⟩, ⟨11⟩, ⟨11⟩, ⟨10⟩⟩, ⟨⟨2000⟩, ⟨2003⟩, ⟨2003⟩, ⟨2000⟩⟩]
    ∃ start near far, new ⟨1000000, by decide, by decide⟩ = .ok start ∧
      (start.pushAll samples).uncertaintyAt ⟨2500⟩ = .ok near ∧
      (start.pushAll samples).uncertaintyAt ⟨5000⟩ = .ok far ∧ near ≤ far :=
  ⟨⟨⟨1000000, by decide, by decide⟩, none, none, none, none, by decide⟩, 1, 4, rfl,
    by decide +kernel, by decide +kernel,
    (@windows_are_coherent ⟨1000000, by decide, by decide⟩ _ rfl
      [⟨⟨10⟩, ⟨11⟩, ⟨11⟩, ⟨10⟩⟩, ⟨⟨2000⟩, ⟨2003⟩, ⟨2003⟩, ⟨2000⟩⟩]).2.2
      ⟨⟨⟨2000⟩, ⟨3, by decide, by decide⟩, ⟨3, by decide, by decide⟩, ⟨3, by decide, by decide⟩, 0⟩,
        ⟨⟨1005025, by decide, by decide⟩, ⟨1005025, by decide, by decide⟩,
          ⟨1005026, by decide, by decide⟩, 1990⟩, ⟨2000⟩⟩ (by decide +kernel)
      ⟨2500⟩ ⟨5000⟩ 1 4 (by decide +kernel) (by decide +kernel)
      (Or.inl ⟨by decide, by decide⟩)⟩

end ClockSync

end Dryer.Clock
