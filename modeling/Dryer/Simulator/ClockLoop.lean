import Dryer.Clock.Acceptance
import Dryer.ControlClient.SessionSafety
import Dryer.Simulator.ClockTransport

/-!
# Clock sessions over the simulated link

One session and its link, under any interleaving of calls on both. Responses may be late,
repeated, reordered or lost, and a session keeps its estimator fed with what arrives in time.
-/
namespace Dryer.Simulator
open Library Clock ControlProtocol ControlClient

/-- A session, its link, and the frames that the host has received. -/
structure ClockLoop where
  session : ClockSession
  transport : SimClockTransport
  received : List SimClockFrame

inductive ClockLoopEvent where
  | begin (now : HostTick)
  | receive (now : HostTick)
  /-- Any received frame, also for a second time. -/
  | respond (index : ℕ) (now : HostTick)
  | expire (now : HostTick)
  | dropLink
  | restoreLink

/-- The link as a sink at one host tick. -/
def clockSink (now : HostTick) : FrameSink SimClockTransport SimClockTransportError where
  sendFrame frame transport := transport.sendRequest now.ticks frame

/-- One call, with what a response led to. -/
def clockLoopMachine :
    Machine ClockLoop ClockLoopEvent (Except (ClockSessionError Empty) ClockExchangeReceipt) where
  step loop
    | .begin now =>
      let (_, session, transport, _) :=
        loop.session.begin (clockSink now) loop.transport (clockAt now) ()
      ({ loop with session, transport }, [])
    | .receive now =>
      let (frame, transport) := loop.transport.receiveDue now.ticks
      ({ loop with transport, received := loop.received ++ frame.toList }, [])
    | .respond index now =>
      match loop.received[index]? with
      | none => (loop, [])
      | some frame =>
        let (result, session, _) := loop.session.acceptResponse frame.bytes (clockAt now) ()
        ({ loop with session }, [result])
    | .expire now => ({ loop with session := (loop.session.expire now).2 }, [])
    | .dropLink => ({ loop with transport := loop.transport.dropLink }, [])
    | .restoreLink => ({ loop with transport := loop.transport.restoreLink }, [])

/-- An exchange begins after the last accepted one has ended, and a response is handed over when
it has been delivered. -/
def Timely (loop : ClockLoop) : ClockLoopEvent → Prop
  | .begin now => ∀ last ∈ loop.session.sync.lastRaw, last.hostReceive.ticks < now.ticks
  | .respond index now => ∀ frame ∈ loop.received[index]?, frame.deliveredAt ≤ now.ticks
  | _ => True

instance (loop : ClockLoop) : DecidablePred (Timely loop)
  | .begin now => inferInstanceAs
      (Decidable (∀ last ∈ loop.session.sync.lastRaw, last.hostReceive.ticks < now.ticks))
  | .respond index now => inferInstanceAs
      (Decidable (∀ frame ∈ loop.received[index]?, frame.deliveredAt ≤ now.ticks))
  | .receive _ | .expire _ | .dropLink | .restoreLink => inferInstanceAs (Decidable True)

/-- The estimator rejected a sample. -/
def RejectedSample {α : Type} (result : Except (ClockSessionError Empty) α) : Prop :=
  ∃ e, result = .error (.sync e)

/-- The frame answers a request of the session: the pending one, or an earlier one. -/
def Correlates (clock : ControllerClock) (session : ClockSession) (frame : SimClockFrame) :
    Prop :=
  ∃ sequence sentAt, frame.Answers clock sequence sentAt ∧
    (session.exhausted = false → sequence < session.nextSequence) ∧
    ∀ exchange, session.pending = some exchange → exchange.sequence = sequence →
      exchange.hostSend.ticks = sentAt

/-- The session is fed by the clock of its link. -/
structure Fed (maxSlewPpb : I128) (clock : ControllerClock) (loop : ClockLoop) : Prop where
  linkClock : loop.transport.cfg.controllerClock = clock
  slew : loop.session.sync.maxSlewPpb = maxSlewPpb
  inFlight : ∀ response ∈ loop.transport.pending, Correlates clock loop.session response.frame
  received : ∀ frame ∈ loop.received, Correlates clock loop.session frame
  anchored : Anchored clock loop.session.sync
  later : ∀ last exchange, loop.session.sync.lastRaw = some last →
    loop.session.pending = some exchange → last.hostReceive.ticks < exchange.hostSend.ticks

/-! ## The session -/

variable {clock : ControllerClock} {session next : ClockSession} {frame : SimClockFrame}

/-- A frame is not affected by the end of an exchange. -/
theorem Correlates.retire (h : Correlates clock session frame)
    (hexhausted : next.exhausted = session.exhausted)
    (hsequence : next.nextSequence = session.nextSequence)
    (hpending : ∀ exchange, next.pending = some exchange → session.pending = some exchange) :
    Correlates clock next frame := by
  obtain ⟨sequence, sentAt, hanswers, hbelow, hsent⟩ := h
  refine ⟨sequence, sentAt, hanswers, ?_, fun exchange hexchange => ?_⟩
  · rwa [hexhausted, hsequence]
  · exact hsent exchange (hpending exchange hexchange)

/-- The next request has a sequence that no frame carries. -/
theorem Correlates.handOver (h : Correlates clock session frame) (now : HostTick)
    (delivered : Bool) (hfresh : session.exhausted = false) :
    Correlates clock (session.handOver now delivered) frame := by
  obtain ⟨sequence, sentAt, hanswers, hbelow, -⟩ := h
  have hlt := hbelow hfresh
  refine ⟨sequence, sentAt, hanswers, fun hlast => ?_, fun exchange hexchange hsame => ?_⟩
  · simp only [ClockSession.handOver, beq_eq_false_iff_ne] at hlast ⊢
    grind
  · cases delivered with
    | false => cases hexchange
    | true =>
      obtain rfl := Option.some.inj hexchange
      exact absurd hlt (hsame ▸ UInt32.lt_irrefl _)

/-- A response to the next request answers the exchange that it begins. -/
theorem SimClockFrame.Answers.correlates {now : HostTick}
    (h : frame.Answers clock session.nextSequence now.ticks) (delivered : Bool) :
    Correlates clock (session.handOver now delivered) frame := by
  refine ⟨session.nextSequence, now.ticks, h, fun hlast => ?_, fun exchange hexchange _ => ?_⟩
  · simp only [ClockSession.handOver, beq_eq_false_iff_ne] at hlast ⊢
    grind
  · cases delivered with
    | false => cases hexchange
    | true =>
      obtain rfl := Option.some.inj hexchange
      rfl

theorem matchResponse_ne_sync {bytes : List UInt8} {now : HostTick}
    {e : ClockSessionError Empty} (h : session.matchResponse bytes now = (.error e, next)) :
    ∀ error, e ≠ .sync error := by
  unfold ClockSession.matchResponse at h
  grind

/-- The sample of a matching response is stamped. -/
theorem Correlates.stampedBy (h : Correlates clock session frame) {now : HostTick}
    (hdelivered : frame.deliveredAt ≤ now.ticks) {exchange : PendingClockExchange}
    {sample : ClockSample}
    (hmatch : session.matchResponse frame.bytes now = (.ok (exchange, sample), next)) :
    sample.StampedBy clock := by
  obtain ⟨sequence, sentAt, ⟨response, hbytes, hstamped⟩, -, hsent⟩ := h
  obtain ⟨hpending, hsend, hreceive, hdecode, -, -⟩ := ClockSession.matchResponse_eq_ok hmatch
  have hframe : decodeClockResponse frame.bytes = .ok ⟨sequence, response⟩ :=
    (clockResponseFrame_codes.decode_iff _ _).mpr ⟨trivial, hbytes⟩
  rw [hframe, Except.ok.injEq, ClockResponseFrame.mk.injEq] at hdecode
  obtain ⟨hsequence, rfl⟩ := hdecode
  obtain ⟨arrival, departure, hle, hprocess, hdeparted, hstamps⟩ := hstamped
  refine ⟨arrival, departure, ?_, hprocess, ?_, hstamps⟩
  · rw [hsend, hsent exchange hpending hsequence.symm]
    exact hle
  · rw [hreceive]
    exact UInt64.le_trans hdeparted hdelivered

/-! ## One event -/

namespace Fed

variable {maxSlewPpb : I128} {loop : ClockLoop}

/-- The end of an exchange without a sample. -/
theorem retire (h : Fed maxSlewPpb clock loop) (hsync : next.sync = loop.session.sync)
    (hexhausted : next.exhausted = loop.session.exhausted)
    (hsequence : next.nextSequence = loop.session.nextSequence)
    (hpending : ∀ exchange, next.pending = some exchange →
      loop.session.pending = some exchange) :
    Fed maxSlewPpb clock { loop with session := next } where
  linkClock := h.linkClock
  slew := hsync ▸ h.slew
  inFlight response hresponse :=
    (h.inFlight response hresponse).retire hexhausted hsequence hpending
  received frame hframe := (h.received frame hframe).retire hexhausted hsequence hpending
  anchored := hsync ▸ h.anchored
  later last exchange hlast hexchange :=
    h.later last exchange (hsync ▸ hlast) (hpending exchange hexchange)

theorem begin (h : Fed maxSlewPpb clock loop) (now : HostTick)
    (htimely : Timely loop (.begin now)) :
    Fed maxSlewPpb clock (clockLoopMachine.step loop (.begin now)).1 := by
  cases hpending : loop.session.pending with
  | some exchange => simpa [clockLoopMachine, ClockSession.begin, hpending] using h
  | none =>
    cases hfresh : loop.session.exhausted with
    | true => simpa [clockLoopMachine, ClockSession.begin, hpending, hfresh] using h
    | false =>
      obtain ⟨rng, order, scheduled, hsent, hscheduled⟩ :=
        loop.transport.sendRequest_snd now.ticks ⟨loop.session.nextSequence⟩
      generalize hresult : loop.transport.sendRequest now.ticks
        (ClockRequestFrame.bytes ⟨loop.session.nextSequence⟩) = outcome at hsent
      obtain ⟨result, transport⟩ := outcome
      obtain rfl : transport = _ := hsent
      simp only [clockLoopMachine, ClockSession.begin_eq _ _ _ _ _ hpending hfresh, clockSink,
        clockAt, hresult]
      refine ⟨h.linkClock, h.slew, ?_, ?_, h.anchored, ?_⟩
      · refine List.forall_mem_append.mpr ⟨fun response hresponse => ?_,
          fun response hresponse => ?_⟩
        · exact (h.inFlight response hresponse).handOver now _ hfresh
        · exact (h.linkClock ▸ hscheduled response hresponse).correlates _
      · exact fun frame hframe => (h.received frame hframe).handOver now _ hfresh
      · intro last exchange hlast hexchange
        cases hdelivered : result.isOk with
        | false => simp [ClockSession.handOver, hdelivered] at hexchange
        | true =>
          simp only [ClockSession.handOver, hdelivered, if_true, Option.some.injEq] at hexchange
          rw [← hexchange]
          exact htimely last hlast

theorem receive (h : Fed maxSlewPpb clock loop) (now : HostTick) :
    Fed maxSlewPpb clock (clockLoopMachine.step loop (.receive now)).1 := by
  simp only [clockLoopMachine]
  generalize hdue : loop.transport.receiveDue now.ticks = outcome
  obtain ⟨_ | frame, transport⟩ := outcome
  · obtain rfl := SimClockTransport.receiveDue_eq_none hdue
    simpa using h
  · obtain ⟨response, hresponse, rfl, -, -, rfl⟩ := SimClockTransport.receiveDue_first hdue
    refine ⟨h.linkClock, h.slew, fun other hother => ?_, ?_, h.anchored, h.later⟩
    · exact h.inFlight other (List.mem_of_mem_erase hother)
    · exact List.forall_mem_append.mpr
        ⟨h.received, List.forall_mem_singleton.mpr (h.inFlight response hresponse)⟩

/-- A response that is handed over in time is accepted, or does not match. -/
theorem respond (h : Fed maxSlewPpb clock loop) (hslew : maxSlewPpb.val ≤ 1000000000)
    (hrate : |clock.ratePpb.toInt| ≤ maxSlewPpb.val) {index : ℕ} {now : HostTick}
    (htimely : Timely loop (.respond index now)) :
    Fed maxSlewPpb clock (clockLoopMachine.step loop (.respond index now)).1 ∧
      ∀ result ∈ (clockLoopMachine.step loop (.respond index now)).2,
        ¬ RejectedSample result := by
  simp only [clockLoopMachine]
  cases hframe : loop.received[index]? with
  | none => exact ⟨h, List.forall_mem_nil _⟩
  | some frame =>
    have hcorrelates := h.received frame (List.mem_of_getElem? hframe)
    rcases hmatch : loop.session.matchResponse frame.bytes now with ⟨e | ⟨exchange, sample⟩, after⟩
    · simp only [ClockSession.acceptResponse, clockAt, hmatch]
      refine ⟨?_, List.forall_mem_singleton.mpr ?_⟩
      · obtain ⟨rfl, -⟩ | ⟨exchange, -, -, rfl⟩ := ClockSession.matchResponse_eq_error hmatch
        · exact h
        · exact h.retire rfl rfl rfl (by simp)
      · rintro ⟨error, herror⟩
        exact matchResponse_ne_sync hmatch error (Except.error.inj herror)
    · have hsample := hcorrelates.stampedBy (htimely frame hframe) hmatch
      obtain ⟨hpending, hsend, -, -, -, rfl⟩ := ClockSession.matchResponse_eq_ok hmatch
      obtain ⟨⟨estimate, hpush⟩, hanchored, -⟩ := push_stamped (h.slew ▸ hslew) (h.slew ▸ hrate)
        h.anchored hsample fun last hlast => hsend ▸ h.later last exchange hlast hpending
      have hkept := ClockSync.push_maxSlewPpb loop.session.sync sample
      simp only [ClockSession.acceptResponse, clockAt, hmatch]
      generalize loop.session.sync.push sample = pushed at hpush hanchored hkept
      obtain ⟨_, sync⟩ := pushed
      obtain rfl : _ = Except.ok estimate := hpush
      refine ⟨⟨h.linkClock, hkept.trans h.slew, ?_, ?_, hanchored, by simp⟩,
        List.forall_mem_singleton.mpr (by simp [RejectedSample])⟩
      · exact fun response hresponse => (h.inFlight response hresponse).retire rfl rfl (by simp)
      · exact fun frame hframe => (h.received frame hframe).retire rfl rfl (by simp)

/-- One event keeps the session fed, and no sample is rejected. -/
theorem step (h : Fed maxSlewPpb clock loop) (hslew : maxSlewPpb.val ≤ 1000000000)
    (hrate : |clock.ratePpb.toInt| ≤ maxSlewPpb.val) (event : ClockLoopEvent)
    (htimely : Timely loop event) :
    Fed maxSlewPpb clock (clockLoopMachine.step loop event).1 ∧
      ∀ result ∈ (clockLoopMachine.step loop event).2, ¬ RejectedSample result := by
  cases event with
  | begin now => exact ⟨h.begin now htimely, List.forall_mem_nil _⟩
  | receive now => exact ⟨h.receive now, List.forall_mem_nil _⟩
  | respond index now => exact h.respond hslew hrate htimely
  | expire now =>
    refine ⟨?_, List.forall_mem_nil _⟩
    have hexpired : (loop.session.expire now).2 = loop.session ∨
        (loop.session.expire now).2 = { loop.session with pending := none } := by
      unfold ClockSession.expire
      grind
    obtain hkept | hretired := hexpired
    · simpa only [clockLoopMachine, hkept] using h
    · simp only [clockLoopMachine, hretired]
      exact h.retire rfl rfl rfl (by simp)
  | dropLink =>
    exact ⟨⟨h.linkClock, h.slew, List.forall_mem_nil _, h.received, h.anchored, h.later⟩,
      List.forall_mem_nil _⟩
  | restoreLink =>
    exact ⟨⟨h.linkClock, h.slew, h.inFlight, h.received, h.anchored, h.later⟩,
      List.forall_mem_nil _⟩

end Fed

/-- Over every run of a session with its link the estimator accepts every sample: the clock of
the link slews within the bound of the session, exchanges begin after the last accepted one has
ended, and responses are handed over when they have been delivered. -/
theorem accepts_every_sample {maxSlewPpb : I128} {timeoutTicks : UInt64}
    {cfg : ClockTransportConfig} {session : ClockSession} {transport : SimClockTransport}
    (hslew : maxSlewPpb.val ≤ 1000000000)
    (hrate : |cfg.controllerClock.ratePpb.toInt| ≤ maxSlewPpb.val)
    (hsession : ClockSession.new maxSlewPpb timeoutTicks = .ok session)
    (htransport : SimClockTransport.new cfg = .ok transport) {events : List ClockLoopEvent}
    (htimely : clockLoopMachine.Along Timely ⟨session, transport, []⟩ events) :
    ∀ result ∈ (clockLoopMachine.run ⟨session, transport, []⟩ events).2,
      ¬ RejectedSample result := by
  have hfed : Fed maxSlewPpb cfg.controllerClock ⟨session, transport, []⟩ := by
    obtain ⟨hpending, -, -, -, hsync⟩ := ClockSession.new_eq_ok hsession
    obtain ⟨hcfg, hinFlight⟩ := SimClockTransport.new_eq_ok htransport
    refine ⟨hcfg ▸ rfl, ClockSync.maxSlewPpb_of_new hsync, ?_, List.forall_mem_nil _,
      anchored_of_new hsync _, fun last exchange _ hexchange => ?_⟩
    · rw [hinFlight]
      exact List.forall_mem_nil _
    · rw [hpending] at hexchange
      cases hexchange
  have hkept := Machine.run_along (M := clockLoopMachine)
    (P := fun loop results => Fed maxSlewPpb cfg.controllerClock loop ∧
      ∀ result ∈ results, ¬ RejectedSample result)
    (C := Timely) (fun loop results event h hevent => ?_) ⟨hfed, List.forall_mem_nil _⟩ htimely
  · exact hkept.2
  · obtain ⟨hnext, hresults⟩ := h.1.step hslew hrate event hevent
    exact ⟨hnext, List.forall_mem_append.mpr ⟨h.2, hresults⟩⟩

/-- Two exchanges over a link that repeats every response. -/
theorem accepts_every_sample_repeated :
    let cfg := { ClockTransportConfig.default with
      response := { ClockLinkConfig.default with dupPerMille := 1000 } }
    let events : List ClockLoopEvent :=
      [.begin ⟨10⟩, .receive ⟨500⟩, .receive ⟨500⟩, .respond 0 ⟨500⟩, .begin ⟨600⟩,
        .respond 1 ⟨610⟩, .receive ⟨1100⟩, .respond 2 ⟨1100⟩]
    ∃ session transport, ClockSession.new ⟨1000, by decide, by decide⟩ 100000 = .ok session ∧
      SimClockTransport.new cfg = .ok transport ∧
      ((clockLoopMachine.run ⟨session, transport, []⟩ events).2.map (·.isOk) =
        [true, false, true]) ∧
      ∀ result ∈ (clockLoopMachine.run ⟨session, transport, []⟩ events).2,
        ¬ RejectedSample result := by
  intro cfg events
  refine ⟨_, _, rfl, rfl, by decide +kernel, ?_⟩
  exact @accepts_every_sample ⟨1000, by decide, by decide⟩ 100000 cfg _ _ (by decide) (by decide)
    rfl rfl events (by decide +kernel)

end Dryer.Simulator
