import Dryer.Library.Machine
import Dryer.Simulator.ClockCandidates
import Mathlib.Data.Prod.Lex

/-!
# Causality of the clock link

A response that arrives answers a request that was accepted, with ticks of the controller between
the hand-over of the request and its own arrival. Responses are numbered in the order in which
they are queued, and arrive by their ticks and numbers.
-/
namespace Dryer.Simulator
open Library ControlProtocol

inductive ClockTransportEvent where
  | send (hostSend : Tick) (frame : List UInt8)
  | receive (hostNow : Tick)
  | dropLink
  | restoreLink

/-- One event at the link, with the frame that is received. -/
def clockTransportMachine : Machine SimClockTransport ClockTransportEvent SimClockFrame where
  step transport
    | .send hostSend frame =>
      (((ClockAction.sendRequestMut hostSend frame).onCopy transport).2, [])
    | .receive hostNow =>
      let (frame, transport) := transport.receiveDue hostNow
      (transport, frame.toList)
    | .dropLink => (transport.dropLink, [])
    | .restoreLink => (transport.restoreLink, [])

/-- A request, with the responses that were queued for it. -/
structure AcceptedRequest where
  hostSend : Tick
  sequence : UInt32
  responses : List ScheduledResponse

/-- The requests that have been accepted after an event. -/
def logAccepted (transport : SimClockTransport) (event : ClockTransportEvent)
    (accepted : List AcceptedRequest) : List AcceptedRequest :=
  match event with
  | .send hostSend frame =>
    match decodeClockRequest frame,
      (ClockAction.sendRequestMut hostSend frame).onCopy transport with
    | .ok request, (.ok (), next) =>
      accepted ++ [⟨hostSend, request.sequence, next.pending.drop transport.pending.length⟩]
    | _, _ => accepted
  | _ => accepted

/-- All responses that have been queued, in order. -/
def insertedResponses (accepted : List AcceptedRequest) : List ScheduledResponse :=
  accepted.flatMap (·.responses)

/-- What a link guarantees of the requests that it has accepted. -/
structure Causal (transport : SimClockTransport) (accepted : List AcceptedRequest) : Prop where
  /-- Responses are numbered in the order in which they were queued. -/
  numbered : (insertedResponses accepted).map (·.insertionOrder.toNat) =
    List.range (insertedResponses accepted).length
  atMostFour : ∀ request ∈ accepted, request.responses.length ≤ 4
  capacity : transport.pending.length ≤ transport.cfg.maxPending
  /-- A received frame is a response that is due, before all others that are, and answers the
  request for which it was queued. -/
  received : ∀ hostNow frame next, transport.receiveDue hostNow = (some frame, next) →
    ∃ response ∈ transport.pending, response.frame = frame ∧ response.deliveredAt ≤ hostNow ∧
      (∀ other ∈ transport.pending, other.deliveredAt ≤ hostNow →
        other = response ∨ response.before other) ∧
      next = { transport with pending := transport.pending.erase response } ∧
      ∃ request ∈ accepted, response ∈ request.responses ∧
        frame.Answers transport.cfg.controllerClock request.sequence request.hostSend
  idle : ∀ hostNow, (transport.receiveDue hostNow).1 = none ↔
    ∀ response ∈ transport.pending, hostNow < response.deliveredAt
  rejected : ∀ hostSend frame e next,
    (ClockAction.sendRequestMut hostSend frame).onCopy transport = (.error e, next) →
      next = transport

/-! ## The order of responses -/

/-- Consecutive numbers from one on. They wrap. -/
def Numbered (order : UInt64) (responses : List ScheduledResponse) : Prop :=
  responses.map (·.insertionOrder) =
    (List.range responses.length).map fun i => order + UInt64.ofNat i

namespace Numbered

variable {order : UInt64} {responses later : List ScheduledResponse}

theorem nil (order : UInt64) : Numbered order [] := rfl

theorem append (h : Numbered order responses)
    (hlater : Numbered (order + UInt64.ofNat responses.length) later) :
    Numbered order (responses ++ later) := by
  unfold Numbered at h hlater ⊢
  rw [List.map_append, h, hlater, List.length_append, List.range_add, List.map_append,
    List.map_map]
  congr 2
  funext i
  rw [Function.comp_apply, UInt64.ofNat_add, UInt64.add_assoc]

theorem inOrder (order : UInt64) (bytes : List UInt8) (ticks : List Tick) :
    Numbered order (SimClockTransport.inOrder order bytes ticks) := by
  induction ticks generalizing order with
  | nil => exact nil order
  | cons deliveredAt rest ih =>
    have hfirst : Numbered order [{ deliveredAt, insertionOrder := order, bytes }] := by
      simp [Numbered]
    exact hfirst.append (ih (order + 1))

/-- As long as the numbers do not wrap, they count the responses. -/
theorem toNat_eq (h : Numbered 0 responses) (hlt : responses.length < 2 ^ 64) :
    responses.map (·.insertionOrder.toNat) = List.range responses.length := by
  have hnat := congrArg (List.map UInt64.toNat) h
  rw [List.map_map, List.map_map] at hnat
  refine hnat.trans ((List.map_congr_left fun i hi => ?_).trans (List.map_id _))
  have hi' := List.mem_range.mp hi
  rw [Function.comp_apply, UInt64.zero_add, UInt64.toNat_ofNat', Nat.mod_eq_of_lt (by omega)]
  rfl

end Numbered

/-! ## What an accepted request queues -/

namespace SimClockTransport

variable {transport next : SimClockTransport}

theorem length_deliveries {sentAt : Tick} {link : ClockLinkConfig} {ticks : List Tick}
    (h : transport.deliveries sentAt link = .ok (ticks, next)) : ticks.length ≤ 2 := by
  unfold deliveries at h
  dsimp only at h
  split at h
  · cases h
    exact Nat.zero_le 2
  · obtain ⟨_, -, h⟩ := bind_eq_ok.mp h
    obtain ⟨_, -, h⟩ := bind_eq_ok.mp h
    obtain ⟨_, -, h⟩ := bind_eq_ok.mp h
    split at h
    · obtain ⟨_, -, h⟩ := bind_eq_ok.mp h
      cases h
      exact le_rfl
    · cases h
      exact Nat.le_succ 1

theorem length_inOrder (order : UInt64) (bytes : List UInt8) (ticks : List Tick) :
    (inOrder order bytes ticks).length = ticks.length := by
  induction ticks generalizing order with
  | nil => rfl
  | cons deliveredAt rest ih => exact congrArg (· + 1) (ih (order + 1))

/-- At most two responses to a copy of a request, which take the next numbers. -/
theorem respond_numbered {sequence : UInt32} {arrivalHost : Tick}
    {responses : List ScheduledResponse}
    (h : transport.respond sequence arrivalHost = .ok (responses, next)) :
    responses.length ≤ 2 ∧ Numbered transport.nextInsertionOrder responses ∧
      next.nextInsertionOrder =
        transport.nextInsertionOrder + UInt64.ofNat responses.length := by
  simp only [respond, bind_eq_ok, encode_response] at h
  obtain ⟨_, -, _, -, _, -, _, -, ⟨ticks, rolled⟩, hdeliveries, h⟩ := h
  have hlength := length_deliveries hdeliveries
  obtain ⟨⟨rng, rfl⟩, -⟩ := deliveries_eq_ok hdeliveries
  cases h
  rw [length_inOrder]
  exact ⟨hlength, .inOrder _ _ ticks, rfl⟩

theorem respondAll_numbered {sequence : UInt32} {arrivals : List Tick}
    {scheduled : List ScheduledResponse}
    (h : transport.respondAll sequence arrivals = .ok (scheduled, next)) :
    scheduled.length ≤ 2 * arrivals.length ∧ Numbered transport.nextInsertionOrder scheduled ∧
      next.nextInsertionOrder =
        transport.nextInsertionOrder + UInt64.ofNat scheduled.length := by
  induction arrivals generalizing transport scheduled next with
  | nil =>
    cases h
    exact ⟨Nat.zero_le _, .nil _, (UInt64.add_zero _).symm⟩
  | cons arrivalHost rest ih =>
    rw [respondAll] at h
    obtain ⟨⟨responses, middle⟩, hrespond, h⟩ := bind_eq_ok.mp h
    obtain ⟨⟨later, last⟩, hlater, h⟩ := bind_eq_ok.mp h
    cases h
    obtain ⟨htwo, hnumbered, hmiddle⟩ := respond_numbered hrespond
    obtain ⟨hmore, hlaterNumbered, hlast⟩ := ih hlater
    rw [hmiddle] at hlaterNumbered hlast
    refine ⟨?_, hnumbered.append hlaterNumbered, ?_⟩
    · rw [List.length_append, List.length_cons]
      omega
    · rw [hlast, List.length_append, UInt64.ofNat_add, UInt64.add_assoc]

/-- What an accepted request leaves on the link. -/
structure Queues (transport next : SimClockTransport) (hostSend : Tick) (sequence : UInt32)
    (scheduled : List ScheduledResponse) : Prop where
  link : ∃ rng, next = { transport with
    rng, nextInsertionOrder := transport.nextInsertionOrder + UInt64.ofNat scheduled.length,
    pending := transport.pending ++ scheduled }
  atMostFour : scheduled.length ≤ 4
  numbered : Numbered transport.nextInsertionOrder scheduled
  answers : ∀ response ∈ scheduled,
    response.frame.Answers transport.cfg.controllerClock sequence hostSend
  capacity : transport.pending.length ≤ transport.cfg.maxPending →
    transport.pending.length + scheduled.length ≤ transport.cfg.maxPending

theorem sendRequestMut_eq_ok {hostSend : Tick} {frame : List UInt8}
    (h : transport.sendRequestMut hostSend frame = .ok next) :
    ∃ request scheduled, decodeClockRequest frame = .ok request ∧
      transport.Queues next hostSend request.sequence scheduled := by
  unfold sendRequestMut at h
  obtain ⟨request, hrequest, h⟩ := bind_eq_ok.mp h
  rw [mapError_eq_ok] at hrequest
  split at h
  · cases h
    refine ⟨request, [], hrequest, ⟨transport.rng, ?_⟩, Nat.zero_le 4, .nil _, ?_, id⟩
    · simp
    · simp
  · obtain ⟨⟨arrivals, rolled⟩, hdeliveries, h⟩ := bind_eq_ok.mp h
    obtain ⟨⟨scheduled, responded⟩, hrespond, h⟩ := bind_eq_ok.mp h
    obtain ⟨_, hroom, h⟩ := bind_eq_ok.mp h
    have hlength := length_deliveries hdeliveries
    obtain ⟨⟨rng, rfl⟩, harrivals⟩ := deliveries_eq_ok hdeliveries
    obtain ⟨hfour, hnumbered, horder⟩ := respondAll_numbered hrespond
    obtain ⟨⟨rng', order, rfl⟩, hanswers⟩ := respondAll_eq_ok harrivals hrespond
    cases h
    dsimp only at horder hfour
    refine ⟨request, scheduled, hrequest, ⟨rng', by rw [horder]⟩, by omega, hnumbered, hanswers,
      fun _ => ?_⟩
    rw [reject_eq_ok] at hroom
    exact Nat.not_lt.mp hroom

/-- A request is accepted, or it changes nothing. -/
theorem onCopy_cases (transport : SimClockTransport) (hostSend : Tick) (frame : List UInt8) :
    (∃ e, (ClockAction.sendRequestMut hostSend frame).onCopy transport = (.error e, transport)) ∨
      ∃ request next scheduled, decodeClockRequest frame = .ok request ∧
        (ClockAction.sendRequestMut hostSend frame).onCopy transport = (.ok (), next) ∧
        transport.Queues next hostSend request.sequence scheduled := by
  rw [← sendRequest_eq_onCopy]
  unfold sendRequest
  split
  · rename_i e _
    exact .inl ⟨e, rfl⟩
  · rename_i next hnext
    obtain ⟨request, scheduled, hrequest, hqueues⟩ := sendRequestMut_eq_ok hnext
    exact .inr ⟨request, next, scheduled, hrequest, rfl, hqueues⟩

theorem receiveDue_eq_none_iff (transport : SimClockTransport) (hostNow : Tick) :
    (transport.receiveDue hostNow).1 = none ↔
      ∀ response ∈ transport.pending, hostNow < response.deliveredAt := by
  have hfilter : transport.pending.filter (·.deliveredAt ≤ hostNow) = [] ↔
      ∀ response ∈ transport.pending, hostNow < response.deliveredAt := by
    simp [List.filter_eq_nil_iff, UInt64.not_le]
  rw [← hfilter]
  unfold receiveDue
  split
  · rename_i hnone
    simp [hnone]
  · rename_i first rest hsome
    simp [hsome]

end SimClockTransport

/-! ## Runs -/

/-- The responses in flight are among those that were queued for the accepted requests, which are
numbered consecutively. -/
structure Logged (transport : SimClockTransport) (accepted : List AcceptedRequest) : Prop where
  numbered : Numbered 0 (insertedResponses accepted)
  next : transport.nextInsertionOrder = UInt64.ofNat (insertedResponses accepted).length
  inFlight : transport.pending.Sublist (insertedResponses accepted)
  atMostFour : ∀ request ∈ accepted, request.responses.length ≤ 4
  answers : ∀ request ∈ accepted, ∀ response ∈ request.responses,
    response.frame.Answers transport.cfg.controllerClock request.sequence request.hostSend
  capacity : transport.pending.length ≤ transport.cfg.maxPending

namespace Logged

variable {transport next : SimClockTransport} {accepted : List AcceptedRequest}

/-- Responses that leave the link. -/
theorem remove (h : Logged transport accepted) {pending : List ScheduledResponse}
    (hpending : pending.Sublist transport.pending) (linkUp : Bool) :
    Logged { transport with pending, linkUp } accepted where
  numbered := h.numbered
  next := h.next
  inFlight := hpending.trans h.inFlight
  atMostFour := h.atMostFour
  answers := h.answers
  capacity := hpending.length_le.trans h.capacity

theorem accept (h : Logged transport accepted) {hostSend : Tick} {sequence : UInt32}
    {scheduled : List ScheduledResponse}
    (hqueues : transport.Queues next hostSend sequence scheduled) :
    Logged next (accepted ++ [⟨hostSend, sequence, scheduled⟩]) := by
  have hinserted : insertedResponses (accepted ++ [⟨hostSend, sequence, scheduled⟩]) =
      insertedResponses accepted ++ scheduled := by
    simp [insertedResponses]
  obtain ⟨rng, rfl⟩ := hqueues.link
  have hnumbered := hqueues.numbered
  rw [h.next] at hnumbered
  constructor
  · rw [hinserted]
    refine h.numbered.append ?_
    rwa [UInt64.zero_add]
  · rw [hinserted, List.length_append, UInt64.ofNat_add, ← h.next]
  · rw [hinserted]
    exact h.inFlight.append (.refl _)
  · exact List.forall_mem_append.mpr
      ⟨h.atMostFour, List.forall_mem_singleton.mpr hqueues.atMostFour⟩
  · exact List.forall_mem_append.mpr ⟨h.answers, List.forall_mem_singleton.mpr hqueues.answers⟩
  · rw [List.length_append]
    exact hqueues.capacity h.capacity

theorem step (h : Logged transport accepted) (event : ClockTransportEvent) :
    Logged (clockTransportMachine.step transport event).1
      (logAccepted transport event accepted) := by
  cases event with
  | send hostSend frame =>
    simp only [clockTransportMachine, logAccepted]
    obtain ⟨e, hrejected⟩ | ⟨request, next, scheduled, hrequest, hsent, hqueues⟩ :=
      transport.onCopy_cases hostSend frame
    · rw [hrejected]
      cases decodeClockRequest frame <;> exact h
    · obtain ⟨rng, hnext⟩ := hqueues.link
      have hscheduled : next.pending.drop transport.pending.length = scheduled := by
        rw [hnext, List.drop_left]
      rw [hrequest, hsent]
      dsimp only
      rw [hscheduled]
      exact h.accept hqueues
  | receive hostNow =>
    simp only [clockTransportMachine, logAccepted]
    generalize hdue : transport.receiveDue hostNow = outcome
    obtain ⟨_ | frame, next⟩ := outcome
    · obtain rfl := SimClockTransport.receiveDue_eq_none hdue
      exact h
    · obtain ⟨response, -, -, -, -, rfl⟩ := SimClockTransport.receiveDue_first hdue
      exact h.remove List.erase_sublist transport.linkUp
  | dropLink => exact h.remove (List.nil_sublist _) false
  | restoreLink => exact h.remove (.refl _) true

/-- Responses in flight with one number are one response. -/
theorem eq_of_order (h : Logged transport accepted)
    (hfew : (insertedResponses accepted).length < 2 ^ 64) {response other : ScheduledResponse}
    (hresponse : response ∈ transport.pending) (hother : other ∈ transport.pending)
    (horder : other.insertionOrder = response.insertionOrder) : other = response := by
  have hnodup := h.numbered.toNat_eq hfew ▸ List.nodup_range
  exact List.inj_on_of_nodup_map hnodup (h.inFlight.subset hother) (h.inFlight.subset hresponse)
    (congrArg UInt64.toNat horder)

theorem causal (h : Logged transport accepted)
    (hfew : (insertedResponses accepted).length < 2 ^ 64) : Causal transport accepted where
  numbered := h.numbered.toNat_eq hfew
  atMostFour := h.atMostFour
  capacity := h.capacity
  received hostNow frame next hdue := by
    obtain ⟨response, hresponse, hframe, harrived, hfirst, hnext⟩ :=
      SimClockTransport.receiveDue_first hdue
    obtain ⟨request, hrequest, hqueued⟩ := List.mem_flatMap.mp (h.inFlight.subset hresponse)
    refine ⟨response, hresponse, hframe, harrived, fun other hother hotherDue => ?_, hnext, request,
      hrequest, hqueued, hframe ▸ h.answers request hrequest response hqueued⟩
    have hnot := hfirst other hother hotherDue
    rw [before_iff, Prod.Lex.toLex_lt_toLex, not_or, not_and] at hnot
    have hsame := h.eq_of_order hfew hresponse hother
    rw [before_iff, Prod.Lex.toLex_lt_toLex]
    rw [← UInt64.toNat_inj] at hsame
    dsimp only at hnot ⊢
    grind
  idle hostNow := transport.receiveDue_eq_none_iff hostNow
  rejected hostSend frame e next hrejected := by
    obtain ⟨error, hsame⟩ | ⟨request, last, scheduled, -, hsent, -⟩ :=
      transport.onCopy_cases hostSend frame
    · exact (congrArg Prod.snd (hsame.symm.trans hrejected)).symm
    · cases hsent.symm.trans hrejected

end Logged

/-- After every run in which fewer than `2 ^ 64` responses have been queued, the link delivers what
is due in order, to the requests that it has accepted, and changes nothing for others. -/
theorem causal_run {cfg : ClockTransportConfig} {transport : SimClockTransport}
    (hnew : SimClockTransport.new cfg = .ok transport) (events : List ClockTransportEvent)
    (hfew : (insertedResponses ((clockTransportMachine.withHistory logAccepted).run (transport, [])
      events).1.2).length < 2 ^ 64) :
    Causal ((clockTransportMachine.withHistory logAccepted).run (transport, []) events).1.1
      ((clockTransportMachine.withHistory logAccepted).run (transport, []) events).1.2 := by
  have hstart : Logged transport [] := by
    simp only [SimClockTransport.new, bind_eq_ok] at hnew
    obtain ⟨-, -, -, -, -, -, hnew⟩ := hnew
    cases hnew
    exact ⟨.nil 0, rfl, .refl _, by simp, by simp, Nat.zero_le _⟩
  have hlogged := Machine.run_invariant (M := clockTransportMachine.withHistory logAccepted)
    (P := fun state _ => Logged state.1 state.2)
    (s := (transport, [])) (fun state _ event h => h.step event) hstart events
  exact hlogged.causal hfew

/-- Two requests over a link that repeats every frame and has room for four responses, of which
the second finds none left. -/
theorem causal_run_repeated :
    let link := { ClockLinkConfig.default with dupPerMille := 1000 }
    let cfg := { ClockTransportConfig.default with
      request := link, response := link, maxPending := 4 }
    let events : List ClockTransportEvent :=
      [.send 100 (ClockRequestFrame.bytes ⟨5⟩), .receive 501,
        .send 600 (ClockRequestFrame.bytes ⟨6⟩)]
    ∃ transport, SimClockTransport.new cfg = .ok transport ∧
      Causal ((clockTransportMachine.withHistory logAccepted).run (transport, []) events).1.1
        ((clockTransportMachine.withHistory logAccepted).run (transport, []) events).1.2 := by
  intro link cfg events
  exact ⟨_, rfl, @causal_run cfg _ rfl events (by decide +kernel)⟩

end Dryer.Simulator
