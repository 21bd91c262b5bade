import Dryer.Library.Machine
import Dryer.TransportAdapter.Dispatch

/-!
# Runs of a stream reader

A rejected frame makes a call lose the frames it had decoded, and leaves bytes in the codec
that the next read comes on top of. Whether a run loses a frame, and how far the codec can
fill up, is decided here.
-/
namespace Dryer.TransportAdapter
open Library ControlProtocol Daemon

structure ReaderState where
  reader : TransportStreamReader
  daemon : ControllerDaemon

/-- One call, with the outcome of its read. -/
structure ReadCall (ε : Type) where
  read : Except ε { bytes : List UInt8 // bytes.length ≤ TransportStreamReader.readBufLen }
  controllerId : String
  currentHostUs : UInt64

inductive ReaderAct (ε : Type) where
  | fed (bytes : List UInt8)
  | extracted (frame : List UInt8)
  | returned (frames : List DispatchedFrame)
  | failed (error : TransportAdapterError ε)
  deriving DecidableEq

variable {ε : Type}

/-- A transport whose next read has a given outcome. -/
def scripted {limit : Nat} (read : Except ε { bytes : List UInt8 // bytes.length ≤ limit }) :
    StreamTransport Unit ε where
  readBytes space _ :=
    (read.map fun bytes => ⟨bytes.val.take space, List.length_take_le space bytes.val⟩, ())

/-- The codec once the read of a call is in, unless the read fails or does not fit. -/
def codecFed (reader : TransportStreamReader) (call : ReadCall ε) : Option FrameCodec :=
  match call.read with
  | .error _ => none
  | .ok bytes =>
    match reader.codec.feed bytes.val with
    | (.error _, _) => none
    | (.ok (), fed) => some fed

/-- The frames that the codec delimits in what it holds after the read. -/
def framesHeld (reader : TransportStreamReader) (call : ReadCall ε) : List (List UInt8) :=
  match codecFed reader call with
  | none => []
  | some fed => fed.drain.1

def bytesRead (call : ReadCall ε) : List UInt8 :=
  match call.read with
  | .error _ => []
  | .ok bytes => bytes.val

namespace ReaderAct

def fedBytes : ReaderAct ε → List UInt8
  | .fed bytes => bytes
  | _ => []

def extractedFrames : ReaderAct ε → List (List UInt8)
  | .extracted frame => [frame]
  | _ => []

/-- What the caller of a successful call gets. -/
def returnedFrames : ReaderAct ε → List DispatchedFrame
  | .returned frames => frames
  | _ => []

def outcome : Except (TransportAdapterError ε) (List DispatchedFrame) → ReaderAct ε
  | .ok frames => .returned frames
  | .error e => .failed e

/-- The acts of a call that drains the codec. -/
def drained (bytes : List UInt8) (taken : List (List UInt8))
    (result : Except (TransportAdapterError ε) (List DispatchedFrame)) : List (ReaderAct ε) :=
  .fed bytes :: taken.map .extracted ++ [outcome result]

section Drained

variable (bytes : List UInt8) (taken : List (List UInt8))
  (result : Except (TransportAdapterError ε) (List DispatchedFrame))

@[simp] theorem fedBytes_drained : (drained bytes taken result).flatMap fedBytes = bytes := by
  cases result <;> simp [drained, outcome, fedBytes, List.flatMap_map]

@[simp] theorem extractedFrames_drained :
    (drained bytes taken result).flatMap extractedFrames = taken := by
  cases result <;> simp [drained, outcome, extractedFrames, List.flatMap_map]

@[simp] theorem returnedFrames_drained :
    (drained bytes taken result).flatMap returnedFrames = result.toOption.getD [] := by
  cases result <;> simp [drained, outcome, returnedFrames, List.flatMap_map, Except.toOption]

theorem failed_mem_drained {e : TransportAdapterError ε} :
    .failed e ∈ drained bytes taken result ↔ result = .error e := by
  cases result <;> simp [drained, outcome, eq_comm]

end Drained

end ReaderAct

/-- One call of `readAndDispatch`, with what it fed, took and returned. -/
def readerMachine (ε : Type) : Machine ReaderState (ReadCall ε) (ReaderAct ε) where
  step state call :=
    let (result, reader, _, daemon) := state.reader.readAndDispatch (scripted call.read) ()
      state.daemon call.controllerId call.currentHostUs
    ({ reader, daemon }, match codecFed state.reader call with
      | none => [.outcome result]
      | some _ =>
        ReaderAct.drained (bytesRead call) (untilRejected (framesHeld state.reader call)) result)

/-- A call that drains the codec meets a rejected frame first, or not at all. -/
def Keeps (state : ReaderState) (call : ReadCall ε) : Prop :=
  (∀ frame ∈ framesHeld state.reader call, Accepted frame) ∨
    ∃ frame later, framesHeld state.reader call = frame :: later ∧ ¬ Accepted frame

/-! ## One call -/

theorem FrameCodec.feed_eq_error {codec next : FrameCodec} {data : List UInt8}
    {e : FrameCodecError} (h : codec.feed data = (.error e, next)) :
    next = codec ∧ codec.maxCapacity < codec.buffer.length + data.length := by
  unfold feed at h
  split at h
  case isTrue hover =>
    cases h
    exact ⟨rfl, hover⟩
  case isFalse => cases h

/-- Feeding nothing does nothing, so the test before a feed makes no difference. -/
theorem FrameCodec.feed_if_pos (codec : FrameCodec) (data : List UInt8) :
    (if data.length > 0 then codec.feed data else (.ok (), codec)) = codec.feed data := by
  split
  case isTrue => rfl
  case isFalse hempty =>
    have hnil : data = [] := List.length_eq_zero_iff.mp (by omega)
    exact (feed_eq_ok.mpr ⟨by simp [hnil], rfl⟩).symm

/-- What a call does: its read fails, or does not fit, or is fed and drained. -/
theorem step_cases (state : ReaderState) (call : ReadCall ε) :
    (∃ e, call.read = .error e ∧ codecFed state.reader call = none ∧
      (readerMachine ε).step state call = (state, [.failed (.transport e)])) ∨
    (∃ e, state.reader.codec.maxCapacity <
        state.reader.codec.buffer.length + (bytesRead call).length ∧
      codecFed state.reader call = none ∧
      (readerMachine ε).step state call = (state, [.failed (.codec e)])) ∨
    ∃ bytes fed, call.read = .ok bytes ∧ codecFed state.reader call = some fed ∧
      fed.buffer = state.reader.codec.buffer ++ bytesRead call ∧
      fed.maxCapacity = state.reader.codec.maxCapacity ∧
      (readerMachine ε).step state call =
        let result := dispatchFrames fed state.daemon call.controllerId call.currentHostUs []
        ({ reader := ⟨result.2.1⟩, daemon := result.2.2 },
          ReaderAct.drained (bytesRead call) (untilRejected fed.drain.1) result.1) := by
  rcases hread : call.read with e | bytes
  · refine .inl ⟨e, rfl, by simp [codecFed, hread], ?_⟩
    simp [readerMachine, TransportStreamReader.readAndDispatch, scripted, codecFed, hread,
      Except.map, ReaderAct.outcome]
  have hwhole : bytes.val.take TransportStreamReader.readBufLen = bytes.val :=
    List.take_of_length_le bytes.property
  have hbytes : bytesRead call = bytes.val := by rw [bytesRead, hread]
  have hfeedIf := state.reader.codec.feed_if_pos bytes.val
  rw [hbytes]
  rcases hfeed : state.reader.codec.feed bytes.val with ⟨e | _, fed⟩
  · obtain ⟨rfl, hover⟩ := FrameCodec.feed_eq_error hfeed
    refine .inr (.inl ⟨e, hover, by simp [codecFed, hread, hfeed], ?_⟩)
    rw [hfeed] at hfeedIf
    simp [readerMachine, TransportStreamReader.readAndDispatch, scripted, codecFed, hread,
      Except.map, hwhole, hfeed, hfeedIf, ReaderAct.outcome]
  · obtain ⟨hbuffer, hcapacity⟩ := FrameCodec.feed_eq_ok.mp hfeed
    refine .inr (.inr ⟨bytes, fed, rfl, by simp [codecFed, hread, hfeed], hbuffer, hcapacity, ?_⟩)
    rw [hfeed] at hfeedIf
    simp [readerMachine, TransportStreamReader.readAndDispatch, scripted, codecFed, framesHeld,
      hread, Except.map, hwhole, hfeed, hfeedIf, hbytes]

theorem framesHeld_of_fed {reader : TransportStreamReader} {call : ReadCall ε} {fed : FrameCodec}
    (h : codecFed reader call = some fed) : framesHeld reader call = fed.drain.1 := by
  simp only [framesHeld, h]

/-! ## Frames that are lost -/

theorem untilRejected_of_accepted {held : List (List UInt8)}
    (h : ∀ frame ∈ held, Accepted frame) : untilRejected held = held := by
  induction held with
  | nil => rfl
  | cons frame later ih =>
    rw [List.forall_mem_cons] at h
    rw [untilRejected, if_pos h.1, ih h.2]

theorem fedBytes_replicate (n : Nat) :
    FrameCodec.fedBytes (List.replicate n .nextFrame) = [] := by
  induction n with
  | zero => rfl
  | succ n ih => exact ih

/-- The frames extracted and those still to be delimited are the frames of the bytes fed. -/
theorem emitted_run (daemon : ControllerDaemon) (calls : List (ReadCall ε)) :
    let (last, trace) := (readerMachine ε).run ⟨.new, daemon⟩ calls
    frames.Emitted (trace.flatMap ReaderAct.fedBytes) (trace.flatMap ReaderAct.extractedFrames)
      last.reader.codec.buffer := by
  refine Machine.run_invariant (P := fun (state : ReaderState) (trace : List (ReaderAct ε)) =>
    frames.Emitted (trace.flatMap ReaderAct.fedBytes)
      (trace.flatMap ReaderAct.extractedFrames) state.reader.codec.buffer)
    ?_ Delimiter.Emitted.nil calls
  intro state trace call hemitted
  obtain ⟨e, -, -, hstep⟩ | ⟨e, -, -, hstep⟩ | ⟨bytes, fed, -, -, hbuffer, -, hstep⟩ :=
    step_cases state call
  · rw [hstep]
    simpa [ReaderAct.fedBytes, ReaderAct.extractedFrames] using hemitted
  · rw [hstep]
    simpa [ReaderAct.fedBytes, ReaderAct.extractedFrames] using hemitted
  · obtain ⟨n, hcalls⟩ := @dispatchFrames_calls ε call.controllerId call.currentHostUs fed
      state.daemon []
    have hfed := hemitted.feed (bytesRead call)
    rw [← hbuffer] at hfed
    have hdrained := FrameCodec.emitted_calls hfed hcalls
    rw [fedBytes_replicate, List.append_nil] at hdrained
    rw [hstep]
    simpa using hdrained

/-- A call that meets a rejected frame first, or not at all, returns all that it decoded. -/
theorem returned_of_keeps {state : ReaderState} {call : ReadCall ε} (h : Keeps state call) :
    ((readerMachine ε).step state call).2.flatMap ReaderAct.returnedFrames =
      (((readerMachine ε).step state call).2.flatMap ReaderAct.extractedFrames).filterMap
        typedDecode := by
  obtain ⟨e, -, -, hstep⟩ | ⟨e, -, -, hstep⟩ | ⟨bytes, fed, -, hfed, -, -, hstep⟩ :=
    step_cases state call
  · simp [hstep, ReaderAct.returnedFrames, ReaderAct.extractedFrames]
  · simp [hstep, ReaderAct.returnedFrames, ReaderAct.extractedFrames]
  rw [Keeps, framesHeld_of_fed hfed] at h
  rw [hstep]
  simp only [ReaderAct.returnedFrames_drained, ReaderAct.extractedFrames_drained]
  obtain haccepted | ⟨frame, later, hfirst, hrejected⟩ := h
  · obtain ⟨next, hresult⟩ := @dispatchFrames_accepted ε call.controllerId call.currentHostUs fed
      haccepted state.daemon []
    rw [hresult, untilRejected_of_accepted haccepted]
    rfl
  · have hsome : ¬ ∀ frame ∈ fed.drain.1, Accepted frame := by
      intro hall
      exact hrejected (hall frame (hfirst ▸ List.mem_cons_self))
    obtain ⟨e, rest, next, hresult, -⟩ := @dispatchFrames_rejected ε call.controllerId
      call.currentHostUs fed hsome state.daemon []
    have hnone : typedDecode frame = none := by simpa [Accepted] using hrejected
    rw [hresult, hfirst, untilRejected, if_neg hrejected, List.filterMap_cons_none hnone]
    rfl

/-- A rejected frame behind an accepted one makes the call lose what it decoded. -/
theorem returned_of_not_keeps {state : ReaderState} {call : ReadCall ε} (h : ¬ Keeps state call) :
    ((readerMachine ε).step state call).2.flatMap ReaderAct.returnedFrames = [] ∧
      (((readerMachine ε).step state call).2.flatMap ReaderAct.extractedFrames).filterMap
        typedDecode ≠ [] := by
  obtain ⟨e, -, hfed, -⟩ | ⟨e, -, hfed, -⟩ | ⟨bytes, fed, -, hfed, -, -, hstep⟩ :=
    step_cases state call
  · exact absurd (.inl (by simp [framesHeld, hfed])) h
  · exact absurd (.inl (by simp [framesHeld, hfed])) h
  rw [Keeps, framesHeld_of_fed hfed, not_or] at h
  obtain ⟨hsome, hfirst⟩ := h
  obtain ⟨e, rest, next, hresult, -⟩ := @dispatchFrames_rejected ε call.controllerId
    call.currentHostUs fed hsome state.daemon []
  rw [hstep]
  simp only [ReaderAct.returnedFrames_drained, ReaderAct.extractedFrames_drained]
  refine ⟨by rw [hresult]; rfl, ?_⟩
  cases hdrain : fed.drain.1 with
  | nil => exact absurd (by simp [hdrain]) hsome
  | cons frame later =>
    have haccepted : Accepted frame := by
      by_contra hrejected
      exact hfirst ⟨frame, later, hdrain, hrejected⟩
    obtain ⟨decoded, hdecoded⟩ := Option.isSome_iff_exists.mp haccepted
    rw [untilRejected, if_pos haccepted, List.filterMap_cons_some hdecoded]
    exact List.cons_ne_nil _ _

/-- Over any run, the frames extracted are those of the bytes fed, in order. The result vectors
hold all of them that decode, in this order and once each, exactly when no call meets a
rejected frame behind an accepted one. -/
theorem reader_returns_iff (daemon : ControllerDaemon) (calls : List (ReadCall ε)) :
    let (last, trace) := (readerMachine ε).run ⟨.new, daemon⟩ calls
    frames.Emitted (trace.flatMap ReaderAct.fedBytes) (trace.flatMap ReaderAct.extractedFrames)
        last.reader.codec.buffer ∧
      (trace.flatMap ReaderAct.returnedFrames =
          (trace.flatMap ReaderAct.extractedFrames).filterMap typedDecode ↔
        (readerMachine ε).Along Keeps ⟨.new, daemon⟩ calls) := by
  refine ⟨emitted_run daemon calls, ?_⟩
  have hruns := Machine.flatMap_run_eq_iff (M := readerMachine ε) (f := ReaderAct.returnedFrames)
    (g := fun act => act.extractedFrames.filterMap typedDecode) (C := Keeps)
    (s := ⟨.new, daemon⟩) ?_ ?_ calls
  · simpa only [List.filterMap_flatMap] using hruns.2
  · intro state call hkeeps
    rw [returned_of_keeps hkeeps, List.filterMap_flatMap]
  · intro state call hkeeps
    obtain ⟨hnone, hsome⟩ := returned_of_not_keeps hkeeps
    rw [hnone, ← List.filterMap_flatMap]
    exact List.length_pos_iff.mpr hsome

/-- A clock request in front of one without its payload byte, in one read: the first decodes and
is never returned. -/
theorem reader_drops_decoded_request :
    let (_, trace) := (readerMachine Empty).run ⟨.new, .new⟩
      [⟨.ok ⟨[68, 82, 1, 3, 7, 0, 0, 0, 1, 0, 0, 117, 27, 59, 44,
          68, 82, 1, 3, 7, 0, 0, 0, 0, 0, 88, 70, 88, 251], by decide⟩, "mcu1", 5⟩,
        ⟨.ok ⟨[], by decide⟩, "mcu1", 6⟩]
    trace.flatMap ReaderAct.extractedFrames =
        [[68, 82, 1, 3, 7, 0, 0, 0, 1, 0, 0, 117, 27, 59, 44],
          [68, 82, 1, 3, 7, 0, 0, 0, 0, 0, 88, 70, 88, 251]] ∧
      typedDecode [68, 82, 1, 3, 7, 0, 0, 0, 1, 0, 0, 117, 27, 59, 44] =
        some (.clockRequest ⟨7⟩) ∧
      trace.flatMap ReaderAct.returnedFrames = [] := by
  decide +kernel

/-! ## Bytes that are left behind -/

/-- How much the codec can hold after a call: an unfinished frame when it was drained, and what
was read, less one frame, on top of what it could hold before when a frame was rejected. -/
def nextBacklog (state : ReaderState) (call : ReadCall ε) (backlog : Nat) : Nat :=
  match call.read with
  | .error _ => backlog
  | .ok bytes =>
    if ∀ frame ∈ framesHeld state.reader call, Accepted frame then maxFrameLen - 1
    else backlog + bytes.val.length - (headerLen + checksumLen)

/-- The read fits on top of the backlog. -/
def Room (state : ReaderState × Nat) (call : ReadCall ε) : Prop :=
  state.2 + (bytesRead call).length ≤ defaultCodecCapacity

/-- The codec holds no more than the backlog, and no read has overflowed it. -/
structure Roomy (state : ReaderState × Nat) (trace : List (ReaderAct ε)) : Prop where
  capacity : state.1.reader.codec.maxCapacity = defaultCodecCapacity
  backlog : state.1.reader.codec.buffer.length ≤ state.2
  fits : ∀ e, .failed (.codec e) ∉ trace

theorem roomy_step {state : ReaderState × Nat} {trace : List (ReaderAct ε)} {call : ReadCall ε}
    (h : Roomy state trace) (hroom : Room state call) :
    Roomy (((readerMachine ε).withHistory nextBacklog).step state call).1
      (trace ++ (((readerMachine ε).withHistory nextBacklog).step state call).2) := by
  obtain ⟨state, backlog⟩ := state
  obtain ⟨hcapacity, hbacklog, hfits⟩ := h
  change Roomy (((readerMachine ε).step state call).1, nextBacklog state call backlog)
    (trace ++ ((readerMachine ε).step state call).2)
  dsimp only at hcapacity hbacklog
  unfold Room at hroom
  obtain ⟨e, hread, -, hstep⟩ | ⟨e, hover, -⟩ | ⟨bytes, fed, hread, hfed, hbuffer, hkept, hstep⟩ :=
    step_cases state call
  · have hsame : nextBacklog state call backlog = backlog := by rw [nextBacklog, hread]
    rw [hstep, hsame]
    exact ⟨hcapacity, hbacklog, by simpa using hfits⟩
  · omega
  have hlength : fed.buffer.length = state.reader.codec.buffer.length + bytes.val.length := by
    rw [hbuffer, List.length_append, bytesRead, hread]
  have hnext : nextBacklog state call backlog =
      if ∀ frame ∈ fed.drain.1, Accepted frame then maxFrameLen - 1
      else backlog + bytes.val.length - (headerLen + checksumLen) := by
    simp only [nextBacklog, hread, framesHeld_of_fed hfed]
  rw [hstep, hnext]
  by_cases haccepted : ∀ frame ∈ fed.drain.1, Accepted frame
  · obtain ⟨next, hresult⟩ := @dispatchFrames_accepted ε call.controllerId call.currentHostUs fed
      haccepted state.daemon []
    rw [hresult, if_pos haccepted]
    refine ⟨fed.drain_maxCapacity.trans (hkept.trans hcapacity),
      Nat.le_sub_one_of_lt fed.length_drain, fun e hmem => ?_⟩
    rcases List.mem_append.mp hmem with hmem | hmem
    · exact hfits e hmem
    · cases (ReaderAct.failed_mem_drained _ _ _).mp hmem
  · obtain ⟨e, rest, next, hresult, hkind, hroom, hrest⟩ := @dispatchFrames_rejected ε
      call.controllerId call.currentHostUs fed haccepted state.daemon []
    rw [hresult, if_neg haccepted]
    refine ⟨hrest.trans (hkept.trans hcapacity), ?_, fun codecError hmem => ?_⟩
    · dsimp only
      omega
    · rcases List.mem_append.mp hmem with hmem | hmem
      · exact hfits codecError hmem
      · exact hkind codecError (Except.error.inj ((ReaderAct.failed_mem_drained _ _ _).mp hmem))

/-- In a run whose reads all fit on top of the backlog, no read overflows the codec. -/
theorem reader_never_overflows {daemon : ControllerDaemon} {calls : List (ReadCall ε)}
    (h : ((readerMachine ε).withHistory nextBacklog).Along Room (⟨.new, daemon⟩, 0) calls) :
    ∀ e, .failed (.codec e) ∉ ((readerMachine ε).run ⟨.new, daemon⟩ calls).2 := by
  have hstart : @Roomy ε (⟨.new, daemon⟩, 0) [] := ⟨rfl, Nat.le_refl _, by simp⟩
  have hroomy := Machine.run_along (M := (readerMachine ε).withHistory nextBacklog) (P := Roomy)
    (fun _ _ _ hroomy hroom => roomy_step hroomy hroom) hstart h
  have hfits := hroomy.fits
  rw [(Machine.run_withHistory nextBacklog 0 calls).2] at hfits
  simpa using hfits

/-- A rejected frame in front of a clock request, and the read after it. -/
theorem reader_never_overflows_rejected :
    ∃ trace, trace = ((readerMachine Empty).run ⟨.new, .new⟩
      [⟨.ok ⟨[68, 82, 1, 3, 7, 0, 0, 0, 0, 0, 88, 70, 88, 251, 68, 82, 1, 3, 7, 0, 0, 0, 1, 0, 0,
        117, 27, 59, 44], by decide⟩, "mcu1", 5⟩, ⟨.ok ⟨[68], by decide⟩, "mcu1", 6⟩]).2 ∧
      .failed (.decode (.invalidPayloadLength 1 0)) ∈ trace ∧ ∀ e, .failed (.codec e) ∉ trace := by
  refine ⟨_, rfl, by decide +kernel, reader_never_overflows ⟨?_, ?_, trivial⟩⟩
  · unfold Room
    decide +kernel
  · unfold Room
    decide +kernel

/-- Nine reads of forty clock requests without their payload byte each: the last two overflow. -/
theorem reader_wedges :
    ((readerMachine Empty).run ⟨.new, .new⟩ (List.replicate 9 ⟨.ok ⟨(List.replicate 40
        [68, 82, 1, 3, 7, 0, 0, 0, 0, 0, 88, 70, 88, 251]).flatten, by decide +kernel⟩,
      "mcu1", 5⟩)).2.count (.failed (.codec (.bufferOverflow 4096))) = 2 := by
  decide +kernel

end Dryer.TransportAdapter
