import Dryer.Clock.Soundness
import Dryer.ControlClient.ClockSession
import Dryer.Library.Lists
import Dryer.Library.Machine

/-!
# Safety of clock sessions

A session under any interleaving of its calls, with a transport that may fail and a peer
that may send anything. The trace of a run records what reached the transport, what was
pushed into the estimator, and which exchanges were given up.
-/
namespace Dryer.ControlClient
open Library Clock ControlProtocol

inductive SessionEvent (ε : Type) where
  | begin (now : HostTick) (outcome : Except ε Unit)
  | respond (now : HostTick) (bytes : List UInt8)
  | expire (now : HostTick)

inductive SessionAct where
  | handed (frame : List UInt8) (hostSend : HostTick) (delivered : Bool)
  | pushed (sequence : UInt32) (sample : ClockSample) (response : List UInt8)
  | expired (sequence : UInt32)

/-- A sink with one outcome that keeps what it was handed. -/
def recordingSink {ε : Type} (outcome : Except ε Unit) : FrameSink (List (List UInt8)) ε where
  sendFrame frame handed := (outcome, handed ++ [frame])

/-- A clock at one tick. -/
def clockAt (now : HostTick) : HostClock Unit where
  now _ := (now, ())

/-- One call of a session. -/
def sessionMachine (ε : Type) : Machine ClockSession (SessionEvent ε) SessionAct where
  step session
    | .begin now outcome =>
      let (_, next, handed, _) := session.begin (recordingSink outcome) [] (clockAt now) ()
      (next, handed.map fun frame => .handed frame now outcome.isOk)
    | .respond now bytes =>
      let (_, next, _) := session.acceptResponse bytes (clockAt now) ()
      (next, match (session.matchResponse bytes now).1 with
        | .ok (pending, sample) => [.pushed pending.sequence sample bytes]
        | .error (.timedOut sequence) => [.expired sequence]
        | .error _ => [])
    | .expire now =>
      let (timeout, next) := session.expire now
      (next, timeout.toList.map fun timeout => .expired timeout.sequence)

/-- The sequence of a request frame. -/
def requestSequence (frame : List UInt8) : Option UInt32 :=
  match decodeClockRequest frame with
  | .ok request => some request.sequence
  | .error _ => none

/-- The sequences that reached the transport, in order. -/
def handedSequences (trace : List SessionAct) : List UInt32 :=
  trace.filterMap fun act =>
    match act with
    | .handed frame _ _ => requestSequence frame
    | _ => none

def pushedSamples (trace : List SessionAct) : List (UInt32 × ClockSample) :=
  trace.filterMap fun act =>
    match act with
    | .pushed sequence sample _ => some (sequence, sample)
    | _ => none

/-- The act ends the exchange of a sequence. -/
def Retires (sequence : UInt32) : SessionAct → Prop
  | .handed frame _ delivered => delivered = false ∧ requestSequence frame = some sequence
  | .pushed retired _ _ => retired = sequence
  | .expired retired => retired = sequence

/-- A delivered request that no act has ended. -/
def Outstanding (trace : List SessionAct) (exchange : PendingClockExchange) : Prop :=
  (∃ frame, .handed frame exchange.hostSend true ∈ trace ∧
    requestSequence frame = some exchange.sequence) ∧
  ∀ act ∈ trace, ¬ Retires exchange.sequence act

/-- A pushed sample belongs to the outstanding exchange, and pairs its recorded tick with a
response that carries its sequence and is in time. -/
def Justified (timeoutTicks : UInt64) (before : List SessionAct) (sequence : UInt32)
    (sample : ClockSample) (response : List UInt8) : Prop :=
  Outstanding before ⟨sequence, sample.hostSend⟩ ∧
  decodeClockResponse response =
    .ok ⟨sequence, ⟨sample.controllerReceive.ticks, sample.controllerSend.ticks⟩⟩ ∧
  U64.saturatingSub sample.hostReceive.ticks sample.hostSend.ticks < timeoutTicks

namespace ClockSession

/-- The session after its next request was handed to the transport. -/
def handOver (session : ClockSession) (now : HostTick) (delivered : Bool) : ClockSession :=
  { session.withRequest ⟨session.nextSequence⟩ with
    exhausted := session.nextSequence == 0xffffffff
    nextSequence := session.nextSequence + 1
    pending := if delivered then some ⟨session.nextSequence, now⟩ else none }

/-- What one call can do to a session and leave in the trace. -/
inductive Moves (session : ClockSession) : ClockSession → List SessionAct → Prop
  | stay : Moves session session []
  | hand (now : HostTick) (delivered : Bool) :
      session.pending = none → session.exhausted = false →
      Moves session (session.handOver now delivered)
        [.handed (ClockRequestFrame.bytes ⟨session.nextSequence⟩) now delivered]
  | push (pending : PendingClockExchange) (sample : ClockSample) (response : List UInt8) :
      session.pending = some pending → sample.hostSend = pending.hostSend →
      decodeClockResponse response = .ok ⟨pending.sequence,
        ⟨sample.controllerReceive.ticks, sample.controllerSend.ticks⟩⟩ →
      U64.saturatingSub sample.hostReceive.ticks sample.hostSend.ticks < session.timeoutTicks →
      Moves session { session with pending := none, sync := (session.sync.push sample).2 }
        [.pushed pending.sequence sample response]
  | giveUp (pending : PendingClockExchange) :
      session.pending = some pending →
      Moves session { session with pending := none } [.expired pending.sequence]

theorem encode_request (session : ClockSession) (frame : ClockRequestFrame) :
    encodeClockRequest frame session.request = (.ok clockRequestFrameLen, frame.bytes) := by
  have hlen : frame.bytes.length = clockRequestFrameLen := frame.length_bytes
  have hwrite := clockRequestFrame_codes.writes frame session.request trivial
    (by rw [hlen, session.requestLen])
  simpa [hlen, ← session.requestLen] using hwrite

theorem begin_eq {σ ε κ : Type} (session : ClockSession) (sink : FrameSink σ ε) (sinkState : σ)
    (clock : HostClock κ) (clockState : κ) (hpending : session.pending = none)
    (hfresh : session.exhausted = false) :
    session.begin sink sinkState clock clockState =
      let sequence := session.nextSequence
      let sent := sink.sendFrame (ClockRequestFrame.bytes ⟨sequence⟩) sinkState
      let (now, clockState) := clock.now clockState
      (match sent.1 with
        | .error e => .error (.transport e)
        | .ok () => .ok ⟨sequence, clockRequestFrameLen⟩,
      session.handOver now sent.1.isOk, sent.2, clockState) := by
  have hencode := session.encode_request ⟨session.nextSequence⟩
  have hframe : (ClockRequestFrame.bytes ⟨session.nextSequence⟩).take clockRequestFrameLen =
      ClockRequestFrame.bytes ⟨session.nextSequence⟩ :=
    List.take_of_length_le (ClockRequestFrame.length_bytes _).le
  simp only [begin, hpending, hfresh, hencode, withRequest, handOver, hframe]
  generalize hsent : sink.sendFrame (ClockRequestFrame.bytes ⟨session.nextSequence⟩)
    sinkState = sent
  obtain ⟨_ | _, sinkState⟩ := sent
  · simp [Except.isOk, Except.toBool]
  · simp [Except.isOk, Except.toBool]

theorem matchResponse_eq_ok {session after : ClockSession} {response : List UInt8}
    {now : HostTick} {pending : PendingClockExchange} {sample : ClockSample}
    (h : session.matchResponse response now = (.ok (pending, sample), after)) :
    session.pending = some pending ∧ sample.hostSend = pending.hostSend ∧
      sample.hostReceive = now ∧
      decodeClockResponse response = .ok ⟨pending.sequence,
        ⟨sample.controllerReceive.ticks, sample.controllerSend.ticks⟩⟩ ∧
      U64.saturatingSub now.ticks pending.hostSend.ticks < session.timeoutTicks ∧
      after = { session with pending := none } := by
  unfold matchResponse decodeClockResponseFrame at h
  split at h
  case h_1 => grind
  case h_2 decoded hdecode =>
    split at h
    case h_1 => grind
    case h_2 found hfound =>
      split_ifs at h with hsequence htime
      · simp at h
      · simp at h
      · simp only [Prod.mk.injEq, Except.ok.injEq] at h
        obtain ⟨⟨rfl, rfl⟩, rfl⟩ := h
        refine ⟨hfound, rfl, rfl, ?_, UInt64.not_le.mp htime, rfl⟩
        rw [hdecode, ← not_ne_iff.mp hsequence]

theorem matchResponse_eq_error {session after : ClockSession} {response : List UInt8}
    {now : HostTick} {e : ClockSessionError Empty}
    (h : session.matchResponse response now = (.error e, after)) :
    (after = session ∧ ∀ sequence, e ≠ .timedOut sequence) ∨
      ∃ pending, session.pending = some pending ∧ e = .timedOut pending.sequence ∧
        after = { session with pending := none } := by
  unfold matchResponse at h
  grind

/-- A call makes one of the four moves. -/
theorem moves_step {ε : Type} (session : ClockSession) (event : SessionEvent ε) :
    Moves session ((sessionMachine ε).step session event).1
      ((sessionMachine ε).step session event).2 := by
  cases event with
  | begin now outcome =>
    cases hpending : session.pending with
    | some pending => simpa [sessionMachine, begin, hpending] using Moves.stay
    | none =>
      cases hfresh : session.exhausted with
      | true => simpa [sessionMachine, begin, hpending, hfresh] using Moves.stay
      | false =>
        have hmove := Moves.hand now outcome.isOk hpending hfresh
        simpa [sessionMachine, begin_eq, hpending, hfresh, recordingSink, clockAt] using hmove
  | respond now response =>
    rcases hmatch : session.matchResponse response now with ⟨e | ⟨pending, sample⟩, after⟩
    · obtain ⟨rfl, hother⟩ | ⟨pending, hpending, rfl, rfl⟩ := matchResponse_eq_error hmatch
      · rcases e with _ | _ | _ | _ | _ | _ | _ | _ | sequence
        case timedOut => exact absurd rfl (hother sequence)
        all_goals simpa [sessionMachine, acceptResponse, clockAt, hmatch] using Moves.stay
      · simpa [sessionMachine, acceptResponse, clockAt, hmatch] using Moves.giveUp pending hpending
    · obtain ⟨hpending, hsend, rfl, hdecode, htime, rfl⟩ := matchResponse_eq_ok hmatch
      have hmove := Moves.push pending sample response hpending hsend hdecode (hsend ▸ htime)
      rcases hpush : session.sync.push sample with ⟨_ | _, sync⟩ <;>
        simpa [sessionMachine, acceptResponse, clockAt, hmatch, hpush] using hmove
  | expire now =>
    cases hpending : session.pending with
    | none => simpa [sessionMachine, expire, hpending] using Moves.stay
    | some pending =>
      by_cases htime : U64.saturatingSub now.ticks pending.hostSend.ticks ≥ session.timeoutTicks
      · have hmove := Moves.giveUp pending hpending
        simpa [sessionMachine, expire, hpending, htime] using hmove
      · simpa [sessionMachine, expire, hpending, htime] using Moves.stay

end ClockSession

theorem requestSequence_bytes (sequence : UInt32) :
    requestSequence (ClockRequestFrame.bytes ⟨sequence⟩) = some sequence := by
  have hdecode := (clockRequestFrame_codes.decode_iff _ ⟨sequence⟩).mpr ⟨trivial, rfl⟩
  simp only [requestSequence, hdecode]

/-- Requests are numbered in order, and the pending exchange is the one that the trace leaves
outstanding. -/
structure Correlated (session : ClockSession) (trace : List SessionAct) : Prop where
  requests : ∀ frame hostSend delivered, .handed frame hostSend delivered ∈ trace →
    ∃ sequence, requestSequence frame = some sequence
  increasing : (handedSequences trace).Pairwise (· < ·)
  below : session.exhausted = false →
    ∀ sequence ∈ handedSequences trace, sequence < session.nextSequence
  exhausted : session.exhausted = true ↔ 0xffffffff ∈ handedSequences trace
  retired : ∀ act ∈ trace, ∀ sequence, Retires sequence act → sequence ∈ handedSequences trace
  pending : ∀ exchange, session.pending = some exchange ↔ Outstanding trace exchange

/-- Every sample that a run from `start` pushed was justified when it was pushed, and the
estimator has seen these samples and no others. -/
structure Sampled (start session : ClockSession) (trace : List SessionAct) : Prop where
  timeoutTicks : session.timeoutTicks = start.timeoutTicks
  once : ((pushedSamples trace).map Prod.fst).Nodup
  justified : ∀ before sequence sample response later,
    trace = before ++ .pushed sequence sample response :: later →
    Justified start.timeoutTicks before sequence sample response
  sync : session.sync = start.sync.pushAll ((pushedSamples trace).map Prod.snd)

section Trace

variable {trace : List SessionAct}

theorem handedSequences_append (trace acts : List SessionAct) :
    handedSequences (trace ++ acts) = handedSequences trace ++ handedSequences acts :=
  List.filterMap_append

theorem pushedSamples_append (trace acts : List SessionAct) :
    pushedSamples (trace ++ acts) = pushedSamples trace ++ pushedSamples acts :=
  List.filterMap_append

theorem mem_handedSequences {sequence : UInt32} :
    sequence ∈ handedSequences trace ↔ ∃ frame hostSend delivered,
      .handed frame hostSend delivered ∈ trace ∧ requestSequence frame = some sequence := by
  simp only [handedSequences, List.mem_filterMap]
  grind

theorem Outstanding.mem_handedSequences {exchange : PendingClockExchange}
    (h : Outstanding trace exchange) : exchange.sequence ∈ handedSequences trace := by
  obtain ⟨⟨frame, hframe, hsequence⟩, _⟩ := h
  exact Dryer.ControlClient.mem_handedSequences.mpr ⟨frame, _, _, hframe, hsequence⟩

theorem mem_pushedSamples {sequence : UInt32} {sample : ClockSample} :
    (sequence, sample) ∈ pushedSamples trace ↔
      ∃ response, .pushed sequence sample response ∈ trace := by
  simp only [pushedSamples, List.mem_filterMap]
  grind

/-- An act that hands nothing over leaves fewer exchanges outstanding. -/
theorem outstanding_append_iff {act : SessionAct} (hact : handedSequences [act] = [])
    (exchange : PendingClockExchange) :
    Outstanding (trace ++ [act]) exchange ↔
      Outstanding trace exchange ∧ ¬ Retires exchange.sequence act := by
  have hnot (frame : List UInt8) (hframe : .handed frame exchange.hostSend true = act) :
      requestSequence frame ≠ some exchange.sequence := by
    intro hsequence
    have hmem : exchange.sequence ∈ handedSequences [act] :=
      mem_handedSequences.mpr ⟨frame, _, _, List.mem_singleton.mpr hframe, hsequence⟩
    simp [hact] at hmem
  unfold Outstanding
  grind

/-- A delivered request with an unretired sequence is outstanding, and is the only new one. -/
theorem outstanding_append_handed {request : List UInt8} {sequence : UInt32} {now : HostTick}
    {delivered : Bool} (hrequest : requestSequence request = some sequence)
    (hunretired : ∀ act ∈ trace, ¬ Retires sequence act) (exchange : PendingClockExchange) :
    Outstanding (trace ++ [.handed request now delivered]) exchange ↔
      (Outstanding trace exchange ∧ (delivered = false → exchange.sequence ≠ sequence)) ∨
        (delivered = true ∧ exchange = ⟨sequence, now⟩) := by
  constructor
  · rintro ⟨⟨frame, hmem, hframe⟩, hlive⟩
    rw [List.forall_mem_append] at hlive
    obtain hold | hlast := List.mem_append.mp hmem
    · refine .inl ⟨⟨⟨frame, hold, hframe⟩, hlive.1⟩, fun hfailed heq => ?_⟩
      exact hlive.2 _ (List.mem_singleton_self _) ⟨hfailed, heq ▸ hrequest⟩
    · simp only [List.mem_singleton, SessionAct.handed.injEq] at hlast
      obtain ⟨rfl, hnow, rfl⟩ := hlast
      rw [hframe, Option.some_inj] at hrequest
      exact .inr ⟨rfl, by rw [← hrequest, ← hnow]⟩
  · rintro (⟨⟨⟨frame, hmem, hframe⟩, hlive⟩, hother⟩ | ⟨rfl, rfl⟩)
    · refine ⟨⟨frame, List.mem_append_left _ hmem, hframe⟩, ?_⟩
      grind [Retires]
    · refine ⟨⟨request, List.mem_append_right _ (List.mem_singleton_self _), hrequest⟩, ?_⟩
      grind [Retires]

end Trace

theorem ClockSession.new_eq_ok {maxSlewPpb : I128} {timeoutTicks : UInt64} {start : ClockSession}
    (h : ClockSession.new maxSlewPpb timeoutTicks = .ok start) :
    start.pending = none ∧ start.exhausted = false ∧ start.nextSequence = 0 ∧
      start.timeoutTicks = timeoutTicks ∧ ClockSync.new maxSlewPpb = .ok start.sync := by
  obtain ⟨sync, hsync, hstart⟩ := bind_eq_ok.mp h
  cases hstart
  exact ⟨rfl, rfl, rfl, rfl, hsync⟩

namespace Correlated

variable {session next : ClockSession} {trace : List SessionAct}

theorem of_new {maxSlewPpb : I128} {timeoutTicks : UInt64}
    (h : ClockSession.new maxSlewPpb timeoutTicks = .ok session) : Correlated session [] := by
  obtain ⟨hpending, hfresh, -, -, -⟩ := ClockSession.new_eq_ok h
  constructor <;> simp [handedSequences, Outstanding, hpending, hfresh]

/-- The pending exchange ends. -/
theorem retire (h : Correlated session trace) {exchange : PendingClockExchange} {act : SessionAct}
    (hpending : session.pending = some exchange) (hact : handedSequences [act] = [])
    (hretires : ∀ sequence, Retires sequence act ↔ sequence = exchange.sequence)
    (hnext : next.pending = none) (hexhausted : next.exhausted = session.exhausted)
    (hsequence : next.nextSequence = session.nextSequence)
    (hother : ∀ frame hostSend delivered, act ≠ .handed frame hostSend delivered) :
    Correlated next (trace ++ [act]) := by
  have hhanded : handedSequences (trace ++ [act]) = handedSequences trace := by
    rw [handedSequences_append, hact, List.append_nil]
  constructor
  case requests =>
    intro frame hostSend delivered hmem
    have := h.requests frame hostSend delivered
    grind
  case increasing => rw [hhanded]; exact h.increasing
  case below => rw [hhanded, hexhausted, hsequence]; exact h.below
  case exhausted => rw [hhanded, hexhausted]; exact h.exhausted
  case retired =>
    have hold := ((h.pending exchange).mp hpending).mem_handedSequences
    have := h.retired
    grind
  case pending =>
    intro other
    rw [outstanding_append_iff hact, ← h.pending, hpending, hretires, hnext]
    grind

/-- The next request reaches the transport, which may drop it. -/
theorem handOver (h : Correlated session trace) (now : HostTick) (delivered : Bool)
    (hpending : session.pending = none) (hfresh : session.exhausted = false) :
    Correlated (session.handOver now delivered) (trace ++
      [.handed (ClockRequestFrame.bytes ⟨session.nextSequence⟩) now delivered]) := by
  have hsequence := requestSequence_bytes session.nextSequence
  have hbelow := h.below hfresh
  have hunspent : 0xffffffff ∉ handedSequences trace := by
    rw [← h.exhausted, hfresh]
    exact Bool.false_ne_true
  have hhanded : handedSequences (trace ++
      [.handed (ClockRequestFrame.bytes ⟨session.nextSequence⟩) now delivered]) =
        handedSequences trace ++ [session.nextSequence] := by
    rw [handedSequences_append]
    simp [handedSequences, hsequence]
  constructor
  case requests =>
    intro frame hostSend delivered hmem
    have := h.requests frame hostSend delivered
    grind
  case increasing =>
    rw [hhanded, List.pairwise_append]
    exact ⟨h.increasing, List.pairwise_singleton _ _, fun s hs t ht =>
      List.mem_singleton.mp ht ▸ hbelow s hs⟩
  case below =>
    rw [hhanded]
    simp only [ClockSession.handOver, List.mem_append, List.mem_singleton, beq_eq_false_iff_ne]
    intro hlast s hs
    have hnext : session.nextSequence < session.nextSequence + 1 := by grind
    grind
  case exhausted =>
    rw [hhanded]
    simp only [ClockSession.handOver, List.mem_append, List.mem_singleton, beq_iff_eq]
    grind
  case retired =>
    rw [hhanded]
    have := h.retired
    grind [Retires]
  case pending =>
    intro exchange
    have hunused : ∀ act ∈ trace, ¬ Retires session.nextSequence act := by
      intro act hact hretires
      exact UInt32.lt_irrefl _ (hbelow _ (h.retired act hact _ hretires))
    rw [outstanding_append_handed hsequence hunused, ← h.pending, hpending]
    cases delivered <;> simp [ClockSession.handOver, eq_comm]

end Correlated

namespace Sampled

variable {start session next : ClockSession} {trace : List SessionAct}

theorem quiet (h : Sampled start session trace) {act : SessionAct}
    (hact : pushedSamples [act] = []) (htimeout : next.timeoutTicks = session.timeoutTicks)
    (hsync : next.sync = session.sync) : Sampled start next (trace ++ [act]) := by
  have hpushed : pushedSamples (trace ++ [act]) = pushedSamples trace := by
    rw [pushedSamples_append, hact, List.append_nil]
  constructor
  case timeoutTicks => rw [htimeout, h.timeoutTicks]
  case once => rw [hpushed]; exact h.once
  case sync => rw [hpushed, hsync]; exact h.sync
  case justified =>
    intro before sequence sample response later heq
    obtain ⟨-, rfl, -⟩ | ⟨later, rfl, -⟩ := append_singleton_cases heq
    · simp [pushedSamples] at hact
    · exact h.justified before sequence sample response later rfl

/-- A justified sample is pushed. -/
theorem push (h : Sampled start session trace) {exchange : PendingClockExchange}
    {sample : ClockSample} {response : List UInt8} (houtstanding : Outstanding trace exchange)
    (hsend : sample.hostSend = exchange.hostSend)
    (hdecode : decodeClockResponse response = .ok ⟨exchange.sequence,
      ⟨sample.controllerReceive.ticks, sample.controllerSend.ticks⟩⟩)
    (htime : U64.saturatingSub sample.hostReceive.ticks sample.hostSend.ticks <
      session.timeoutTicks)
    (htimeout : next.timeoutTicks = session.timeoutTicks)
    (hsync : next.sync = (session.sync.push sample).2) :
    Sampled start next (trace ++ [.pushed exchange.sequence sample response]) := by
  have hpushed : pushedSamples (trace ++ [.pushed exchange.sequence sample response]) =
      pushedSamples trace ++ [(exchange.sequence, sample)] := pushedSamples_append trace _
  constructor
  case timeoutTicks => rw [htimeout, h.timeoutTicks]
  case once =>
    rw [hpushed, List.map_append, List.map_singleton]
    refine List.nodup_append.mpr ⟨h.once, List.pairwise_singleton _ _, ?_⟩
    intro sequence hmem retired hretired heq
    obtain ⟨⟨_, earlier⟩, hearlier, rfl⟩ := List.mem_map.mp hmem
    obtain ⟨bytes, hact⟩ := mem_pushedSamples.mp hearlier
    exact houtstanding.2 _ hact (heq.trans (List.mem_singleton.mp hretired))
  case justified =>
    intro before sequence other bytes later heq
    obtain ⟨rfl, hact, -⟩ | ⟨later, rfl, -⟩ := append_singleton_cases heq
    · cases hact
      rw [← h.timeoutTicks]
      exact ⟨hsend ▸ houtstanding, hdecode, htime⟩
    · exact h.justified before sequence other bytes later rfl
  case sync =>
    rw [hpushed, List.map_append, hsync, h.sync]
    simp [ClockSync.pushAll]

end Sampled

/-- A move keeps both invariants. -/
theorem safe_moves {start session next : ClockSession} {trace acts : List SessionAct}
    (hmoves : session.Moves next acts) (hcorrelated : Correlated session trace)
    (hsampled : Sampled start session trace) :
    Correlated next (trace ++ acts) ∧ Sampled start next (trace ++ acts) := by
  cases hmoves with
  | stay => simpa using ⟨hcorrelated, hsampled⟩
  | hand now delivered hpending hfresh =>
    exact ⟨hcorrelated.handOver now delivered hpending hfresh, hsampled.quiet rfl rfl rfl⟩
  | push exchange sample response hpending hsend hdecode htime =>
    have houtstanding := (hcorrelated.pending exchange).mp hpending
    exact ⟨hcorrelated.retire hpending rfl (fun _ => eq_comm) rfl rfl rfl nofun,
      hsampled.push houtstanding hsend hdecode htime rfl rfl⟩
  | giveUp exchange hpending =>
    exact ⟨hcorrelated.retire hpending rfl (fun _ => eq_comm) rfl rfl rfl nofun,
      hsampled.quiet rfl rfl rfl⟩

theorem safe_run {ε : Type} {maxSlewPpb : I128} {timeoutTicks : UInt64} {start : ClockSession}
    (hnew : ClockSession.new maxSlewPpb timeoutTicks = .ok start)
    (events : List (SessionEvent ε)) :
    Correlated ((sessionMachine ε).run start events).1 ((sessionMachine ε).run start events).2 ∧
      Sampled start ((sessionMachine ε).run start events).1
        ((sessionMachine ε).run start events).2 := by
  refine Machine.run_invariant
    (P := fun session trace => Correlated session trace ∧ Sampled start session trace)
    (fun session trace event hsafe => ?_) ?_ events
  · exact safe_moves (session.moves_step event) hsafe.1 hsafe.2
  · exact ⟨.of_new hnew, ⟨rfl, .nil, by simp, rfl⟩⟩

/-- The safety of the clock protocol: one outstanding exchange, sequences that grow and run out
instead of wrapping, and samples that are each a timely response to their own request. -/
theorem session_safety {ε : Type} {maxSlewPpb : I128} {timeoutTicks : UInt64}
    {start session : ClockSession}
    (hnew : ClockSession.new maxSlewPpb timeoutTicks = .ok start)
    {events : List (SessionEvent ε)} {trace : List SessionAct}
    (hrun : (sessionMachine ε).run start events = (session, trace)) :
    (∀ exchange other, Outstanding trace exchange → Outstanding trace other → exchange = other) ∧
      (∀ exchange, session.pending = some exchange ↔ Outstanding trace exchange) ∧
      (∀ frame hostSend delivered, .handed frame hostSend delivered ∈ trace →
        ∃ sequence, requestSequence frame = some sequence) ∧
      (handedSequences trace).Pairwise (· < ·) ∧
      (0xffffffff ∈ handedSequences trace → session.pending = none →
        ∀ {σ κ : Type} (sink : FrameSink σ ε) (sent : σ) (clock : HostClock κ) (time : κ),
          session.begin sink sent clock time = (.error .sequenceExhausted, session, sent, time)) ∧
      (∀ before sequence sample response later,
        trace = before ++ .pushed sequence sample response :: later →
        Justified timeoutTicks before sequence sample response) ∧
      ((pushedSamples trace).map Prod.fst).Nodup ∧
      session.sync = start.sync.pushAll ((pushedSamples trace).map Prod.snd) := by
  obtain ⟨hcorrelated, hsampled⟩ := safe_run hnew events
  obtain ⟨-, -, -, htimeout, -⟩ := ClockSession.new_eq_ok hnew
  rw [hrun] at hcorrelated hsampled
  refine ⟨?_, hcorrelated.pending, hcorrelated.requests, hcorrelated.increasing, ?_,
    htimeout ▸ hsampled.justified, hsampled.once, hsampled.sync⟩
  · intro exchange other hexchange hother
    have heq := ((hcorrelated.pending exchange).mpr hexchange).symm.trans
      ((hcorrelated.pending other).mpr hother)
    exact Option.some_inj.mp heq
  · intro hlast hpending σ κ sink sent clock time
    have hexhausted : session.exhausted = true := hcorrelated.exhausted.mpr hlast
    simp [ClockSession.begin, hpending, hexhausted]

/-- A dropped request and a repeated response between two exchanges that complete. -/
theorem session_safety_repeated_response :
    ∃ start trace, ClockSession.new ⟨1000, by decide, by decide⟩ 100 = .ok start ∧
      ((sessionMachine Unit).run start [.begin ⟨10⟩ (.ok ()),
        .respond ⟨20⟩ (ClockResponseFrame.bytes ⟨0, ⟨12, 14⟩⟩), .begin ⟨30⟩ (.error ()),
        .begin ⟨40⟩ (.ok ()), .respond ⟨41⟩ (ClockResponseFrame.bytes ⟨0, ⟨12, 14⟩⟩),
        .respond ⟨50⟩ (ClockResponseFrame.bytes ⟨2, ⟨42, 44⟩⟩)]).2 = trace ∧
      handedSequences trace = [0, 1, 2] ∧ (pushedSamples trace).map Prod.fst = [0, 2] ∧
      ((pushedSamples trace).map Prod.fst).Nodup := by
  have hsafe := @session_safety Unit ⟨1000, by decide, by decide⟩ 100 _ _ rfl
    [.begin ⟨10⟩ (.ok ()), .respond ⟨20⟩ (ClockResponseFrame.bytes ⟨0, ⟨12, 14⟩⟩),
      .begin ⟨30⟩ (.error ()), .begin ⟨40⟩ (.ok ()),
      .respond ⟨41⟩ (ClockResponseFrame.bytes ⟨0, ⟨12, 14⟩⟩),
      .respond ⟨50⟩ (ClockResponseFrame.bytes ⟨2, ⟨42, 44⟩⟩)] _ Prod.mk.eta.symm
  obtain ⟨-, -, -, -, -, -, honce, -⟩ := hsafe
  exact ⟨_, _, rfl, rfl, by decide +kernel, by decide +kernel, honce⟩

end Dryer.ControlClient
