import Dryer.Clock.Sessions
import Dryer.Simulator.ClockLoop

/-!
# Sound estimates over the simulated link

A response that takes at least one tick is read before it is delivered, and then the estimate of
its session contains the offset of the controller clock.
-/
namespace Dryer.Simulator
open Library Clock ControlProtocol ControlClient

/-! ## The latency of the link -/

/-- The frame carries a reading of the clock from before its delivery. -/
def SimClockFrame.Prompt (frame : SimClockFrame) (clock : ControllerClock) : Prop :=
  ∃ sequence response departure,
    frame.bytes = ClockResponseFrame.bytes ⟨sequence, response⟩ ∧
    departure < frame.deliveredAt ∧ clock.at departure = .ok response.controllerSend

namespace SimClockTransport

variable {transport next : SimClockTransport}

theorem deliveries_latency {sentAt : Tick} {link : ClockLinkConfig} {ticks : List Tick}
    (h : transport.deliveries sentAt link = .ok (ticks, next)) :
    ∀ tick ∈ ticks, sentAt.toNat + link.latencyTicks.toNat ≤ tick.toNat := by
  unfold deliveries at h
  generalize transport.roll link.lossPerMille = rolled at h
  obtain ⟨lost, rolled⟩ := rolled
  simp only at h
  split at h
  · cases h
    exact List.forall_mem_nil _
  · simp only [bind_eq_ok, okOr_eq_ok, U64.checkedAdd_eq_some] at h
    obtain ⟨⟨jitter, jittered⟩, -, tick, htick, deliveredAt, hdelivered, h⟩ := h
    generalize jittered.roll link.dupPerMille = rolled at h
    obtain ⟨duplicate, rolled⟩ := rolled
    simp only at h
    split at h
    · simp only [bind_eq_ok, okOr_eq_ok, U64.checkedAdd_eq_some] at h
      obtain ⟨again, hlater, h⟩ := h
      cases h
      refine List.forall_mem_cons.mpr ⟨?_, List.forall_mem_singleton.mpr ?_⟩ <;> omega
    · cases h
      exact List.forall_mem_singleton.mpr (by omega)

theorem respond_prompt {sequence : UInt32} {arrivalHost : Tick}
    (hlatency : 0 < transport.cfg.response.latencyTicks) {responses : List ScheduledResponse}
    (h : transport.respond sequence arrivalHost = .ok (responses, next)) :
    ∀ response ∈ responses, response.frame.Prompt transport.cfg.controllerClock := by
  simp only [respond, bind_eq_ok, okOr_eq_ok, mapError_eq_ok, U64.checkedAdd_eq_some,
    encode_response] at h
  obtain ⟨sendHost, -, controllerReceive, -, controllerSend, hsent, -, -,
    ⟨ticks, rolled⟩, hdeliveries, h⟩ := h
  have hticks := deliveries_latency hdeliveries
  cases h
  intro response hresponse
  obtain ⟨htick, hbytes⟩ := mem_inOrder hresponse
  refine ⟨sequence, ⟨controllerReceive, controllerSend⟩, sendHost, hbytes, ?_, hsent⟩
  have harrives := hticks _ htick
  rw [UInt64.lt_iff_toNat_lt] at hlatency ⊢
  exact Nat.lt_of_lt_of_le (Nat.lt_add_of_pos_right hlatency) harrives

theorem respondAll_prompt {sequence : UInt32} {arrivals : List Tick}
    (hlatency : 0 < transport.cfg.response.latencyTicks) {scheduled : List ScheduledResponse}
    (h : transport.respondAll sequence arrivals = .ok (scheduled, next)) :
    ∀ response ∈ scheduled, response.frame.Prompt transport.cfg.controllerClock := by
  induction arrivals generalizing transport next scheduled with
  | nil =>
    cases h
    exact List.forall_mem_nil _
  | cons arrivalHost rest ih =>
    simp only [respondAll, bind_eq_ok] at h
    obtain ⟨⟨responses, middle⟩, hrespond, ⟨later, last⟩, hlater, h⟩ := h
    obtain ⟨⟨rng, order, rfl⟩, -⟩ := respond_eq_ok hrespond
    dsimp only at hlater
    have hrest := ih (by exact hlatency) hlater
    cases h
    exact List.forall_mem_append.mpr ⟨respond_prompt hlatency hrespond, hrest⟩

/-- A request adds prompt responses to the link. -/
theorem sendRequest_prompt (hlatency : 0 < transport.cfg.response.latencyTicks)
    (h : ∀ response ∈ transport.pending, response.frame.Prompt transport.cfg.controllerClock)
    (hostSend : Tick) (frame : List UInt8) :
    (transport.sendRequest hostSend frame).2.cfg = transport.cfg ∧
      ∀ response ∈ (transport.sendRequest hostSend frame).2.pending,
        response.frame.Prompt transport.cfg.controllerClock := by
  unfold sendRequest
  split
  · exact ⟨rfl, h⟩
  · rename_i sent hsent
    simp only [sendRequestMut, bind_eq_ok, mapError_eq_ok] at hsent
    obtain ⟨request, -, hsent⟩ := hsent
    split at hsent
    · cases hsent
      exact ⟨rfl, h⟩
    · simp only [bind_eq_ok, reject_eq_ok] at hsent
      obtain ⟨⟨arrivals, rolled⟩, hdeliveries, ⟨scheduled, responded⟩, hrespond, -, -, hsent⟩ :=
        hsent
      obtain ⟨⟨rng, rfl⟩, harrivals⟩ := deliveries_eq_ok hdeliveries
      have hprompt := respondAll_prompt (by exact hlatency) hrespond
      obtain ⟨⟨rng', order, rfl⟩, -⟩ := respondAll_eq_ok harrivals hrespond
      cases hsent
      exact ⟨rfl, List.forall_mem_append.mpr ⟨h, hprompt⟩⟩

end SimClockTransport

/-! ## Enclosed offsets -/

/-- The offset of the clock at the reference of an observation lies in its interval. -/
structure Encloses (clock : ControllerClock) (observation : OffsetObservation) : Prop where
  low : observation.offsetMinTicks.val ≤
    offset clock.model observation.referenceHost.ticks.toNat
  high : offset clock.model observation.referenceHost.ticks.toNat ≤
    observation.offsetMaxTicks.val

/-- The anchor of the estimate encloses the offset of the clock. -/
def Estimates (clock : ControllerClock) (sync : ClockSync) : Prop :=
  ∀ estimate, sync.estimate = some estimate → Encloses clock estimate.anchor

/-- A sample of the clock whose response was read before the host received it. -/
theorem encloses_of_observes {clock : ControllerClock} {slewPpb : ℤ} (hnonneg : 0 ≤ slewPpb)
    (hslew : slewPpb ≤ 1000000000) (hrate : |clock.ratePpb.toInt| ≤ slewPpb) {sample : ClockSample}
    {observation : OffsetObservation} (hobserves : Observes sample slewPpb observation)
    (hstamped : sample.StampedBy clock) {departure : Tick}
    (hearly : departure < sample.hostReceive.ticks)
    (hsend : clock.at departure = .ok sample.controllerSend.ticks) :
    Encloses clock observation := by
  obtain ⟨arrival, _, harrival, _, _, hreceive, -⟩ := hstamped
  have hmodel := clock.model_slewBounded hrate
  have hspan := hobserves.span
  have hreference := hobserves.reference
  have hrtt : (observation.roundTripTicks.toNat : ℤ) =
      sample.hostReceive.ticks.toNat - sample.hostSend.ticks.toNat := by omega
  rw [UInt64.le_iff_toNat_le] at harrival
  rw [UInt64.lt_iff_toNat_lt] at hearly
  have hlow := hobserves.low
  have hhigh := hobserves.high
  rw [hrtt, ControllerClock.at_eq_ok hsend] at hlow
  rw [hrtt, ControllerClock.at_eq_ok hreceive] at hhigh
  constructor
  · rw [hlow]
    exact hmodel.low_le_offset (by decide) hnonneg hslew (by omega) (by omega) (by omega)
      (by omega)
  · rw [hhigh]
    exact hmodel.offset_le_high (by decide) hnonneg hslew (by omega) (by omega) (by omega)

/-- The estimator keeps its estimate sound when it is pushed such a sample. -/
theorem Estimates.push {clock : ControllerClock} {sync : ClockSync} (h : Estimates clock sync)
    (hslew : sync.maxSlewPpb.val ≤ 1000000000)
    (hrate : |clock.ratePpb.toInt| ≤ sync.maxSlewPpb.val) {sample : ClockSample}
    (hstamped : sample.StampedBy clock) {departure : Tick}
    (hearly : departure < sample.hostReceive.ticks)
    (hsend : clock.at departure = .ok sample.controllerSend.ticks) :
    Estimates clock (sync.push sample).2 := by
  intro estimate hestimate
  cases hcheck : sync.check sample with
  | error e =>
    rw [ClockSync.push_of_error hcheck] at hestimate
    exact h estimate hestimate
  | ok accepted =>
    obtain ⟨observation, accepted⟩ := accepted
    have hchecked := ClockSync.checked_of_check hcheck
    have hnonneg : 0 ≤ sync.maxSlewPpb.val := (abs_nonneg _).trans hrate
    have hencloses := encloses_of_observes hnonneg hslew hrate
      (observeBounded_observes hchecked.observes) hstamped hearly hsend
    rw [ClockSync.push_of_ok hcheck] at hestimate
    cases hprevious : sync.previous with
    | none =>
      rw [hchecked.first hprevious] at hestimate
      exact h estimate hestimate
    | some previous =>
      obtain ⟨-, drift, -, rfl⟩ := hchecked.next previous hprevious
      obtain rfl := Option.some.inj hestimate
      exact hencloses

/-! ## Runs of a session -/

/-- A session that is fed by its link, all frames of which are prompt. -/
structure Sound (maxSlewPpb : I128) (clock : ControllerClock) (loop : ClockLoop) : Prop where
  fed : Fed maxSlewPpb clock loop
  latency : 0 < loop.transport.cfg.response.latencyTicks
  inFlight : ∀ response ∈ loop.transport.pending, response.frame.Prompt clock
  received : ∀ frame ∈ loop.received, frame.Prompt clock
  estimates : Estimates clock loop.session.sync

namespace Sound

variable {maxSlewPpb : I128} {clock : ControllerClock} {loop : ClockLoop}

theorem begin (h : Sound maxSlewPpb clock loop) (now : HostTick)
    (htimely : Timely loop (.begin now)) :
    Sound maxSlewPpb clock (clockLoopMachine.step loop (.begin now)).1 := by
  have hfed := h.fed.begin now htimely
  cases hpending : loop.session.pending with
  | some exchange => simpa [clockLoopMachine, ClockSession.begin, hpending] using h
  | none =>
    cases hfresh : loop.session.exhausted with
    | true => simpa [clockLoopMachine, ClockSession.begin, hpending, hfresh] using h
    | false =>
      have hinFlight := h.fed.linkClock ▸ h.inFlight
      obtain ⟨hcfg, hprompt⟩ := SimClockTransport.sendRequest_prompt h.latency hinFlight now.ticks
        (ClockRequestFrame.bytes ⟨loop.session.nextSequence⟩)
      refine ⟨hfed, ?_, ?_, h.received, ?_⟩
      all_goals
        simp only [clockLoopMachine, ClockSession.begin_eq _ _ _ _ _ hpending hfresh, clockSink,
          clockAt]
      · exact hcfg ▸ h.latency
      · exact h.fed.linkClock ▸ hprompt
      · exact h.estimates

theorem receive (h : Sound maxSlewPpb clock loop) (now : HostTick) :
    Sound maxSlewPpb clock (clockLoopMachine.step loop (.receive now)).1 := by
  have hfed := h.fed.receive now
  simp only [clockLoopMachine] at hfed ⊢
  generalize hdue : loop.transport.receiveDue now.ticks = outcome at hfed
  obtain ⟨_ | frame, transport⟩ := outcome
  · obtain rfl := SimClockTransport.receiveDue_eq_none hdue
    exact ⟨hfed, h.latency, h.inFlight, by simpa using h.received, h.estimates⟩
  · obtain ⟨response, hresponse, rfl, -, -, rfl⟩ := SimClockTransport.receiveDue_first hdue
    refine ⟨hfed, h.latency, fun other hother => ?_, ?_, h.estimates⟩
    · exact h.inFlight other (List.mem_of_mem_erase hother)
    · exact List.forall_mem_append.mpr
        ⟨h.received, List.forall_mem_singleton.mpr (h.inFlight response hresponse)⟩

/-- A matching response was read before it was handed over. -/
theorem respond (h : Sound maxSlewPpb clock loop) (hslew : maxSlewPpb.val ≤ 1000000000)
    (hrate : |clock.ratePpb.toInt| ≤ maxSlewPpb.val) {index : ℕ} {now : HostTick}
    (htimely : Timely loop (.respond index now)) :
    Sound maxSlewPpb clock (clockLoopMachine.step loop (.respond index now)).1 := by
  have hfed := (h.fed.respond hslew hrate htimely).1
  suffices hkept : (clockLoopMachine.step loop (.respond index now)).1.transport =
        loop.transport ∧
      (clockLoopMachine.step loop (.respond index now)).1.received = loop.received ∧
      Estimates clock (clockLoopMachine.step loop (.respond index now)).1.session.sync by
    obtain ⟨htransport, hreceived, hestimates⟩ := hkept
    exact ⟨hfed, htransport ▸ h.latency, htransport ▸ h.inFlight, hreceived ▸ h.received,
      hestimates⟩
  simp only [clockLoopMachine]
  cases hframe : loop.received[index]? with
  | none => exact ⟨rfl, rfl, h.estimates⟩
  | some frame =>
    refine ⟨rfl, rfl, ?_⟩
    have hmem := List.mem_of_getElem? hframe
    rcases hmatch : loop.session.matchResponse frame.bytes now with ⟨e | ⟨exchange, sample⟩, after⟩
    · simp only [ClockSession.acceptResponse, clockAt, hmatch]
      obtain ⟨rfl, -⟩ | ⟨exchange, -, -, rfl⟩ := ClockSession.matchResponse_eq_error hmatch
      · exact h.estimates
      · exact h.estimates
    · have hstamped := (h.fed.received frame hmem).stampedBy (htimely frame hframe) hmatch
      obtain ⟨sequence, response, departure, hbytes, hearly, hsend⟩ := h.received frame hmem
      obtain ⟨-, -, hreceive, hdecode, -, rfl⟩ := ClockSession.matchResponse_eq_ok hmatch
      have hresponse : decodeClockResponse frame.bytes = .ok ⟨sequence, response⟩ :=
        (clockResponseFrame_codes.decode_iff _ _).mpr ⟨trivial, hbytes⟩
      rw [hresponse, Except.ok.injEq, ClockResponseFrame.mk.injEq] at hdecode
      obtain ⟨-, rfl⟩ := hdecode
      have hpushed := h.estimates.push (h.fed.slew ▸ hslew) (h.fed.slew ▸ hrate) hstamped
        (hreceive ▸ UInt64.lt_of_lt_of_le hearly (htimely frame hframe)) hsend
      simp only [ClockSession.acceptResponse, clockAt, hmatch]
      generalize loop.session.sync.push sample = pushed at hpushed
      obtain ⟨_ | _, sync⟩ := pushed
      · exact hpushed
      · exact hpushed

/-- One event keeps the session sound. -/
theorem step (h : Sound maxSlewPpb clock loop) (hslew : maxSlewPpb.val ≤ 1000000000)
    (hrate : |clock.ratePpb.toInt| ≤ maxSlewPpb.val) (event : ClockLoopEvent)
    (htimely : Timely loop event) :
    Sound maxSlewPpb clock (clockLoopMachine.step loop event).1 := by
  have hfed := (h.fed.step hslew hrate event htimely).1
  cases event with
  | begin now => exact h.begin now htimely
  | receive now => exact h.receive now
  | respond index now => exact h.respond hslew hrate htimely
  | expire now =>
    refine ⟨hfed, h.latency, h.inFlight, h.received, ?_⟩
    have hsync : (loop.session.expire now).2.sync = loop.session.sync := by
      unfold ClockSession.expire
      grind
    exact hsync ▸ h.estimates
  | dropLink => exact ⟨hfed, h.latency, List.forall_mem_nil _, h.received, h.estimates⟩
  | restoreLink => exact ⟨hfed, h.latency, h.inFlight, h.received, h.estimates⟩

/-- A new session over a new link. -/
theorem of_new {timeoutTicks : UInt64} {cfg : ClockTransportConfig} {session : ClockSession}
    {transport : SimClockTransport} (hlatency : 0 < cfg.response.latencyTicks)
    (hsession : ClockSession.new maxSlewPpb timeoutTicks = .ok session)
    (htransport : SimClockTransport.new cfg = .ok transport) :
    Sound maxSlewPpb cfg.controllerClock ⟨session, transport, []⟩ := by
  obtain ⟨hpending, -, -, -, hsync⟩ := ClockSession.new_eq_ok hsession
  obtain ⟨rfl, hinFlight⟩ := SimClockTransport.new_eq_ok htransport
  have hempty : ∀ P : ScheduledResponse → Prop, ∀ response ∈ transport.pending, P response := by
    rw [hinFlight]
    exact fun _ => List.forall_mem_nil _
  refine ⟨⟨rfl, ClockSync.maxSlewPpb_of_new hsync, hempty _, List.forall_mem_nil _,
    anchored_of_new hsync _, ?_⟩, hlatency, hempty _, List.forall_mem_nil _, ?_⟩
  · intro last exchange _ hexchange
    rw [hpending] at hexchange
    cases hexchange
  · intro estimate hestimate
    unfold ClockSync.new at hsync
    split at hsync
    · cases hsync
    · rw [← Except.ok.inj hsync] at hestimate
      cases hestimate

/-- The window of a host tick contains the reading of the clock. -/
theorem window (h : Sound maxSlewPpb clock loop)
    (hrate : |clock.ratePpb.toInt| ≤ maxSlewPpb.val) {host : HostTick} {reading : Tick}
    (hreading : clock.at host.ticks = .ok reading) {window : ControllerWindow}
    (hwindow : loop.session.sync.controllerWindow host = .ok window) :
    window.earliest.ticks ≤ reading ∧ reading ≤ window.latest.ticks := by
  obtain ⟨projected, hproject, -⟩ := bind_eq_ok.mp hwindow
  obtain ⟨estimate, hestimate, -⟩ := ClockSync.project_projects hproject
  have hencloses := h.estimates estimate hestimate
  obtain ⟨hlow, hhigh⟩ := ClockSync.window_contains
    (clock.model_slewBounded (h.fed.slew ▸ hrate)) hestimate hencloses.low hencloses.high hwindow
  rw [← ControllerClock.at_eq_ok hreading] at hlow hhigh
  rw [UInt64.le_iff_toNat_le, UInt64.le_iff_toNat_le]
  omega

end Sound

end Dryer.Simulator
