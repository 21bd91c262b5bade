import Dryer.ControlClient.SessionSafety

/-!
# Clock exchanges beside clock sessions

An exchange is the older state machine for the same handshake: it keeps no timeout and its
caller moves the frames. Given the same begins and responses as a session, it stays in step
with the session until the estimator rejects a sample.
-/
namespace Dryer.ControlClient
open Library Clock ControlProtocol

inductive ClockExchangeError where
  | exchangePending
  | noExchangePending
  | sequenceMismatch (expected received : UInt32)
  | decode (error : DecodeError)
  | sync (error : ClockSyncError)
  deriving DecidableEq

/-- One outstanding clock exchange, independent of the transport. -/
structure ClockExchange where
  sync : ClockSync
  nextSequence : UInt32
  pending : Option (UInt32 × HostTick)
  deriving DecidableEq

namespace ClockExchange

def new (maxSlewPpb : I128) : Except ClockSyncError ClockExchange := do
  let sync ← ClockSync.new maxSlewPpb
  pure { sync, nextSequence := 0, pending := none }

def begin (exchange : ClockExchange) (hostSend : HostTick) :
    Except ClockExchangeError ClockRequestFrame × ClockExchange :=
  if exchange.pending.isSome then (.error .exchangePending, exchange)
  else
    let sequence := exchange.nextSequence
    (.ok { sequence }, { exchange with
      nextSequence := sequence + 1
      pending := some (sequence, hostSend) })

/-- Complete the pending exchange. It stays pending when the estimator rejects its sample. -/
def complete (exchange : ClockExchange) (hostReceive : HostTick) (response : ClockResponseFrame) :
    Except ClockExchangeError (Option ClockEstimate) × ClockExchange :=
  match exchange.pending with
  | none => (.error .noExchangePending, exchange)
  | some (expected, hostSend) =>
    if response.sequence ≠ expected then
      (.error (.sequenceMismatch expected response.sequence), exchange)
    else
      match exchange.sync.push {
          hostSend
          controllerReceive := ⟨response.response.controllerReceive⟩
          controllerSend := ⟨response.response.controllerSend⟩
          hostReceive } with
      | (.error e, sync) => (.error (.sync e), { exchange with sync })
      | (.ok estimate, sync) => (.ok estimate, { exchange with sync, pending := none })

def completeFrame (exchange : ClockExchange) (hostReceive : HostTick) (input : List UInt8) :
    Except ClockExchangeError (Option ClockEstimate) × ClockExchange :=
  match decodeClockResponseFrame input with
  | .error e => (.error (.decode e), exchange)
  | .ok response => exchange.complete hostReceive response

def estimate (exchange : ClockExchange) : Option ClockEstimate := exchange.sync.estimate

def pendingSequence (exchange : ClockExchange) : Option UInt32 :=
  exchange.pending.map Prod.fst

end ClockExchange

inductive ExchangeEvent where
  | begin (now : HostTick)
  | respond (now : HostTick) (bytes : List UInt8)

def ExchangeEvent.isBegin : ExchangeEvent → Bool
  | .begin _ => true
  | .respond _ _ => false

/-- An exchange and a session that are given the same calls. No request is lost. -/
def pairMachine : Machine (ClockExchange × ClockSession) ExchangeEvent Empty where
  step pair
    | .begin now =>
      (((pair.1.begin now).2, (pair.2.begin (recordingSink (.ok () : Except Empty Unit)) []
        (clockAt now) ()).2.1), [])
    | .respond now bytes =>
      (((pair.1.completeFrame now bytes).2,
        (pair.2.acceptResponse bytes (clockAt now) ()).2.1), [])

/-- What a caller can see of the two is the same. -/
structure Agrees (pair : ClockExchange × ClockSession) : Prop where
  pending : pair.1.pendingSequence = pair.2.pending.map PendingClockExchange.sequence
  nextSequence : pair.1.nextSequence = pair.2.nextSequence
  sync : pair.1.sync = pair.2.sync

/-- The pending exchange has not timed out when a response arrives. -/
def InTime (pair : ClockExchange × ClockSession) : ExchangeEvent → Prop
  | .begin _ => True
  | .respond now _ => ∀ pending, pair.2.pending = some pending →
    U64.saturatingSub now.ticks pending.hostSend.ticks < pair.2.timeoutTicks

/-- A response to the pending request carries a sample that the estimator accepts. -/
def SampleAccepted (pair : ClockExchange × ClockSession) : ExchangeEvent → Prop
  | .begin _ => True
  | .respond now bytes => ∀ pending response, pair.2.pending = some pending →
    decodeClockResponse bytes = .ok response → response.sequence = pending.sequence →
    (pair.2.sync.push ⟨pending.hostSend, ⟨response.response.controllerReceive⟩,
      ⟨response.response.controllerSend⟩, now⟩).1.isOk = true

/-- The two hold the same exchange, with its tick. -/
structure InStep (pair : ClockExchange × ClockSession) : Prop where
  pending : pair.1.pending = pair.2.pending.map fun pending => (pending.sequence, pending.hostSend)
  nextSequence : pair.1.nextSequence = pair.2.nextSequence
  sync : pair.1.sync = pair.2.sync

theorem InStep.agrees {pair : ClockExchange × ClockSession} (h : InStep pair) : Agrees pair := by
  refine ⟨?_, h.nextSequence, h.sync⟩
  rw [ClockExchange.pendingSequence, h.pending, Option.map_map]
  rfl

section Step

variable {exchange : ClockExchange} {session : ClockSession}

theorem inStep_begin (h : InStep (exchange, session)) (hfresh : session.exhausted = false)
    (now : HostTick) : InStep (pairMachine.step (exchange, session) (.begin now)).1 := by
  obtain ⟨hpending, hsequence, hsync⟩ := h
  simp only at hpending hsequence hsync
  cases hsession : session.pending with
  | some pending =>
    rw [hsession] at hpending
    constructor <;> simp [pairMachine, ClockExchange.begin, ClockSession.begin, *]
  | none =>
    rw [hsession] at hpending
    constructor <;> simp [pairMachine, ClockExchange.begin, ClockSession.begin_eq, recordingSink,
      clockAt, ClockSession.handOver, ClockSession.withRequest, Except.isOk, Except.toBool, *]

/-- A response that the session does not match changes neither of the two. -/
theorem respond_unmatched (h : InStep (exchange, session)) {now : HostTick} {bytes : List UInt8}
    (hunmatched : ∀ pending response, session.pending = some pending →
      decodeClockResponse bytes = .ok response → response.sequence ≠ pending.sequence) :
    (pairMachine.step (exchange, session) (.respond now bytes)).1 = (exchange, session) := by
  have hpending := h.pending
  simp only at hpending
  cases hdecode : decodeClockResponse bytes with
  | error e =>
    simp [pairMachine, ClockExchange.completeFrame, ClockSession.acceptResponse,
      ClockSession.matchResponse, decodeClockResponseFrame, clockAt, hdecode]
  | ok response =>
    cases hsession : session.pending with
    | none =>
      simp [pairMachine, ClockExchange.completeFrame, ClockExchange.complete,
        ClockSession.acceptResponse, ClockSession.matchResponse, decodeClockResponseFrame, clockAt,
        hdecode, hpending, hsession]
    | some pending =>
      have hne := hunmatched pending response hsession hdecode
      simp [pairMachine, ClockExchange.completeFrame, ClockExchange.complete,
        ClockSession.acceptResponse, ClockSession.matchResponse, decodeClockResponseFrame, clockAt,
        hdecode, hpending, hsession, hne]

/-- A matching response retires the exchange in the session, and in the exchange when the
estimator accepts its sample. -/
theorem respond_matched (h : InStep (exchange, session)) {now : HostTick} {bytes : List UInt8}
    {pending : PendingClockExchange} {response : ClockResponseFrame}
    (hsession : session.pending = some pending) (hdecode : decodeClockResponse bytes = .ok response)
    (hsequence : response.sequence = pending.sequence)
    (htime : U64.saturatingSub now.ticks pending.hostSend.ticks < session.timeoutTicks)
    {result : Except ClockSyncError (Option ClockEstimate)} {sync : ClockSync}
    (hpush : session.sync.push ⟨pending.hostSend, ⟨response.response.controllerReceive⟩,
      ⟨response.response.controllerSend⟩, now⟩ = (result, sync)) :
    (pairMachine.step (exchange, session) (.respond now bytes)).1 =
      ({ exchange with sync, pending := if result.isOk then none else exchange.pending },
        { session with sync, pending := none }) := by
  obtain ⟨hpending, -, hsync⟩ := h
  simp only [hsession, Option.map_some] at hpending hsync
  have hlate : ¬ session.timeoutTicks ≤ U64.saturatingSub now.ticks pending.hostSend.ticks :=
    UInt64.not_le.mpr htime
  rcases result with _ | _ <;>
    simp [pairMachine, ClockExchange.completeFrame, ClockExchange.complete,
      ClockSession.acceptResponse, ClockSession.matchResponse, decodeClockResponseFrame, clockAt,
      Except.isOk, Except.toBool, hdecode, hpending, hsync, hsession, hsequence, hlate, hpush]

theorem inStep_respond (h : InStep (exchange, session)) {now : HostTick} {bytes : List UInt8}
    (htime : InTime (exchange, session) (.respond now bytes))
    (haccepted : SampleAccepted (exchange, session) (.respond now bytes)) :
    InStep (pairMachine.step (exchange, session) (.respond now bytes)).1 := by
  by_cases hmatched : ∃ pending response, session.pending = some pending ∧
      decodeClockResponse bytes = .ok response ∧ response.sequence = pending.sequence
  · obtain ⟨pending, response, hsession, hdecode, hsequence⟩ := hmatched
    rcases hpush : session.sync.push ⟨pending.hostSend, ⟨response.response.controllerReceive⟩,
      ⟨response.response.controllerSend⟩, now⟩ with ⟨result, sync⟩
    have hok := haccepted pending response hsession hdecode hsequence
    rw [hpush] at hok
    rw [respond_matched h hsession hdecode hsequence (htime pending hsession) hpush, if_pos hok]
    exact ⟨rfl, h.nextSequence, rfl⟩
  · rw [respond_unmatched h fun pending response hsession hdecode hsequence =>
      hmatched ⟨pending, response, hsession, hdecode, hsequence⟩]
    exact h

/-- The session retires an exchange whose sample is rejected, and the exchange keeps it. -/
theorem sampleAccepted_of_agrees (h : InStep (exchange, session)) {now : HostTick}
    {bytes : List UInt8} (htime : InTime (exchange, session) (.respond now bytes))
    (hagrees : Agrees (pairMachine.step (exchange, session) (.respond now bytes)).1) :
    SampleAccepted (exchange, session) (.respond now bytes) := by
  intro pending response hsession hdecode hsequence
  rcases hpush : session.sync.push ⟨pending.hostSend, ⟨response.response.controllerReceive⟩,
    ⟨response.response.controllerSend⟩, now⟩ with ⟨result, sync⟩
  rw [respond_matched h hsession hdecode hsequence (htime pending hsession) hpush] at hagrees
  have hpending : exchange.pending = some (pending.sequence, pending.hostSend) := by
    simpa [show session.pending = some pending from hsession] using h.pending
  have hretired := hagrees.pending
  by_contra hrejected
  simp [ClockExchange.pendingSequence, hpending, hrejected] at hretired

/-- A begin uses up at most one sequence. -/
theorem nextSequence_step (hfresh : session.exhausted = false) (event : ExchangeEvent)
    (hroom : session.nextSequence.toNat + event.isBegin.toNat < 2 ^ 32) :
    (pairMachine.step (exchange, session) event).1.2.exhausted = false ∧
      (pairMachine.step (exchange, session) event).1.2.nextSequence.toNat ≤
        session.nextSequence.toNat + event.isBegin.toNat := by
  cases event with
  | begin now =>
    simp only [ExchangeEvent.isBegin, Bool.toNat_true] at hroom ⊢
    cases hsession : session.pending with
    | some pending => simp [pairMachine, ClockSession.begin, hsession, hfresh]
    | none =>
      have hlast : session.nextSequence ≠ 0xffffffff := by
        rintro heq
        simp [heq] at hroom
      simp only [pairMachine, ClockSession.begin_eq, hsession, hfresh, ClockSession.handOver,
        ClockSession.withRequest, beq_eq_false_iff_ne]
      refine ⟨hlast, ?_⟩
      rw [UInt32.toNat_add]
      exact Nat.mod_le _ _
  | respond now bytes =>
    simp only [pairMachine, ClockSession.acceptResponse, ClockSession.matchResponse]
    grind

end Step

theorem unexhausted_along {pair : ClockExchange × ClockSession} {events : List ExchangeEvent}
    (hfresh : pair.2.exhausted = false)
    (hroom : pair.2.nextSequence.toNat + events.countP ExchangeEvent.isBegin < 2 ^ 32) :
    pairMachine.Along (fun pair _ => pair.2.exhausted = false) pair events := by
  induction events generalizing pair with
  | nil => trivial
  | cons event events ih =>
    obtain ⟨exchange, session⟩ := pair
    have hcount : (event :: events).countP ExchangeEvent.isBegin =
        events.countP ExchangeEvent.isBegin + event.isBegin.toNat := by
      cases event <;> simp [List.countP_cons, ExchangeEvent.isBegin]
    rw [hcount] at hroom
    dsimp only at hfresh hroom
    obtain ⟨hnext, hsequence⟩ :=
      @nextSequence_step exchange session hfresh event (by omega)
    exact ⟨hfresh, ih hnext (by omega)⟩

theorem ClockExchange.new_eq_ok {maxSlewPpb : I128} {exchange : ClockExchange}
    (h : ClockExchange.new maxSlewPpb = .ok exchange) :
    exchange.pending = none ∧ exchange.nextSequence = 0 ∧
      ClockSync.new maxSlewPpb = .ok exchange.sync := by
  obtain ⟨sync, hsync, hexchange⟩ := bind_eq_ok.mp h
  cases hexchange
  exact ⟨rfl, rfl, hsync⟩

/-- An exchange and a session with the same parameters agree throughout a run exactly when the
estimator accepts the sample of every response to a pending request. -/
theorem exchange_agrees_iff {maxSlewPpb : I128} {timeoutTicks : UInt64} {exchange : ClockExchange}
    {session : ClockSession} (hexchange : ClockExchange.new maxSlewPpb = .ok exchange)
    (hsession : ClockSession.new maxSlewPpb timeoutTicks = .ok session)
    {events : List ExchangeEvent} (hbegins : events.countP ExchangeEvent.isBegin < 2 ^ 32)
    (htime : pairMachine.Along InTime (exchange, session) events) :
    pairMachine.Always Agrees (exchange, session) events ↔
      pairMachine.Along SampleAccepted (exchange, session) events := by
  obtain ⟨hnone, hzero, hsync⟩ := ClockExchange.new_eq_ok hexchange
  obtain ⟨hpending, hfresh, hsequence, -, hstart⟩ := ClockSession.new_eq_ok hsession
  have hinStep : InStep (exchange, session) := by
    refine ⟨by simp [hnone, hpending], hzero.trans hsequence.symm, ?_⟩
    exact Except.ok.inj (hsync.symm.trans hstart)
  have hroom : session.nextSequence.toNat + events.countP ExchangeEvent.isBegin < 2 ^ 32 := by
    simpa [hsequence] using hbegins
  refine Machine.always_iff_along (P := InStep) (fun _ => InStep.agrees) ?_ ?_ hinStep
    (Machine.along_and (unexhausted_along hfresh hroom) htime)
  · rintro ⟨exchange, session⟩ (now | ⟨now, bytes⟩) h ⟨hfresh, htime⟩ haccepted
    · exact inStep_begin h hfresh now
    · exact inStep_respond h htime haccepted
  · rintro ⟨exchange, session⟩ (now | ⟨now, bytes⟩) h ⟨hfresh, htime⟩ hagrees
    · trivial
    · exact sampleAccepted_of_agrees h htime hagrees

/-- One exchange completes in both, and a second request goes out. -/
theorem exchange_agrees_iff_accepted :
    ∃ exchange session, ClockExchange.new ⟨0, by decide, by decide⟩ = .ok exchange ∧
      ClockSession.new ⟨0, by decide, by decide⟩ 100 = .ok session ∧
      pairMachine.Always Agrees (exchange, session) [.begin ⟨10⟩,
        .respond ⟨20⟩ (ClockResponseFrame.bytes ⟨0, ⟨12, 14⟩⟩), .begin ⟨30⟩] := by
  refine ⟨_, _, rfl, rfl, (@exchange_agrees_iff ⟨0, by decide, by decide⟩ 100 _ _ rfl rfl
    [.begin ⟨10⟩, .respond ⟨20⟩ (ClockResponseFrame.bytes ⟨0, ⟨12, 14⟩⟩), .begin ⟨30⟩]
    (by decide) ⟨trivial, ?_, trivial, trivial⟩).mpr ⟨trivial, ?_, trivial, trivial⟩⟩
  · intro pending hpending
    obtain rfl : ⟨0, ⟨10⟩⟩ = pending := Option.some_inj.mp (Eq.trans (by decide +kernel) hpending)
    decide +kernel
  · intro pending response hpending hdecode hsequence
    obtain rfl : ⟨0, ⟨10⟩⟩ = pending := Option.some_inj.mp (Eq.trans (by decide +kernel) hpending)
    obtain rfl : ⟨0, ⟨12, 14⟩⟩ = response :=
      Except.ok.inj (Eq.trans (by decide +kernel) hdecode)
    decide +kernel

/-- The estimator rejects a sample of a controller whose clock ran backwards. The session
retires the exchange, which stays pending in the other. -/
theorem exchange_keeps_rejected_pending :
    ∃ exchange session events, ClockExchange.new ⟨0, by decide, by decide⟩ = .ok exchange ∧
      ClockSession.new ⟨0, by decide, by decide⟩ 100 = .ok session ∧
      events = [.begin ⟨10⟩, .respond ⟨20⟩ (ClockResponseFrame.bytes ⟨0, ⟨30, 20⟩⟩)] ∧
      pairMachine.Along InTime (exchange, session) events ∧
      (pairMachine.run (exchange, session) events).1.1.pendingSequence = some 0 ∧
      (pairMachine.run (exchange, session) events).1.2.pending = none ∧
      ¬ pairMachine.Always Agrees (exchange, session) events := by
  refine ⟨_, _, _, rfl, rfl, rfl, ⟨trivial, ?_, trivial⟩, by decide +kernel, by decide +kernel, ?_⟩
  · intro pending hpending
    obtain rfl : ⟨0, ⟨10⟩⟩ = pending := Option.some_inj.mp (Eq.trans (by decide +kernel) hpending)
    decide +kernel
  · intro ⟨_, _, hagrees⟩
    exact absurd hagrees.pending (by decide +kernel)

end Dryer.ControlClient
