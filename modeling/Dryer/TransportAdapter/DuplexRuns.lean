import Dryer.TransportAdapter.Agreement
import Dryer.TransportAdapter.Pipes
import Dryer.TransportAdapter.ReaderRuns

/-!
# Sessions over a pair of transports

Both sides encode frames into their endpoint and poll it with a stream reader. Whatever the
order of sends, polls and hang-ups, a side is handed the frames of the other side, each once
and in order, and what it was not handed yet is in its codec or on its way.
-/
namespace Dryer.TransportAdapter
open Library ControlProtocol ControlClient Daemon BufferCodec

/-! ## Frames as they are sent -/

/-- What an encoder left in its buffer. -/
def written : Except EncodeError Nat × List UInt8 → Option (List UInt8)
  | (.ok length, output) => some (output.take length)
  | (.error _, _) => none

/-- The bytes that the encoder of a frame writes into a frame buffer. -/
def encodeDispatched (frame : DispatchedFrame) : Option (List UInt8) :=
  let buffer := List.replicate maxFrameLen 0
  match frame with
  | .queueStatus frame => written (encodeQueueStatus frame buffer)
  | .clockRequest frame => written (encodeClockRequest frame buffer)
  | .clockResponse frame => written (encodeClockResponse frame buffer)
  | .command frame => written (encodeCommand frame buffer)
  | .raw _ _ => none

theorem written_eq_some {α : Type} {encode : Encoder UInt8 EncodeError α}
    {decode : Decoder UInt8 DecodeError α} {fits : α → Prop} {word : α → List UInt8}
    (hcodes : Codes encode decode fits word) {frame : α} {buffer bytes : List UInt8}
    (h : written (encode frame buffer) = some bytes) :
    bytes = word frame ∧ decode bytes = .ok frame := by
  rcases hencode : encode frame buffer with ⟨e | length, output⟩
  · rw [hencode] at h
    cases h
  · rw [hencode] at h
    cases h
    obtain ⟨hfits, hword⟩ := hcodes.of_encode_eq_ok hencode
    exact ⟨hword, (hcodes.decode_iff _ _).mpr ⟨hfits, hword⟩⟩

theorem byteAt_frameBytes (messageType : UInt8) (sequence : UInt32) (payload : List UInt8) :
    byteAt (frameBytes messageType sequence payload) 3 = messageType := rfl

/-- What was encoded is framed, and its typed decoder takes it for what it was. -/
theorem encodeDispatched_eq_some {frame : DispatchedFrame} {bytes : List UInt8}
    (h : encodeDispatched frame = some bytes) :
    WellFramed bytes ∧ typedDecode bytes = some frame := by
  cases frame with
  | queueStatus frame =>
    simp only [encodeDispatched] at h
    obtain ⟨hbytes, hdecode⟩ := written_eq_some queueStatusFrame_codes h
    refine ⟨Decodes.wellFramed (Or.inr (Or.inl ⟨frame, hdecode⟩)), ?_⟩
    have htype : byteAt bytes 3 = queueStatusMessageType := by
      rw [hbytes, QueueStatusFrame.bytes, byteAt_frameBytes]
    rw [typedDecode, if_pos htype, decodeQueueStatusFrame, hdecode]
    rfl
  | clockRequest frame =>
    simp only [encodeDispatched] at h
    obtain ⟨hbytes, hdecode⟩ := written_eq_some clockRequestFrame_codes h
    refine ⟨Decodes.wellFramed (Or.inr (Or.inr (Or.inl ⟨frame, hdecode⟩))), ?_⟩
    have htype : byteAt bytes 3 = clockRequestMessageType := by
      rw [hbytes, ClockRequestFrame.bytes, byteAt_frameBytes]
    rw [typedDecode, htype, if_neg (by decide), if_neg (by decide), if_pos rfl, hdecode]
    rfl
  | clockResponse frame =>
    simp only [encodeDispatched] at h
    obtain ⟨hbytes, hdecode⟩ := written_eq_some clockResponseFrame_codes h
    refine ⟨Decodes.wellFramed (Or.inr (Or.inr (Or.inr ⟨frame, hdecode⟩))), ?_⟩
    have htype : byteAt bytes 3 = clockResponseMessageType := by
      rw [hbytes, ClockResponseFrame.bytes, byteAt_frameBytes]
    rw [typedDecode, htype, if_neg (by decide), if_pos rfl, decodeClockResponseFrame, hdecode]
    rfl
  | command frame =>
    simp only [encodeDispatched] at h
    obtain ⟨hbytes, hdecode⟩ := written_eq_some commandFrame_codes h
    refine ⟨Decodes.wellFramed (Or.inl ⟨frame, hdecode⟩), ?_⟩
    have htype : byteAt bytes 3 = commandMessageType := by
      rw [hbytes, CommandFrame.bytes, byteAt_frameBytes]
    rw [typedDecode, htype, if_neg (by decide), if_neg (by decide), if_neg (by decide),
      if_pos rfl, hdecode]
    rfl
  | raw => cases h

/-! ## Sessions -/

/-- `TransportSink`: a frame is written to the transport as it is. -/
def Duplex.sink {τ ε : Type} (D : Duplex τ ε) (endpoint : Endpoint) : FrameSink τ ε where
  sendFrame frame transport := D.writeBytes endpoint frame transport

structure DuplexState (τ : Type) where
  transport : τ
  reader : Endpoint → TransportStreamReader
  daemon : Endpoint → ControllerDaemon
  gone : Endpoint → Bool

inductive DuplexEvent where
  | send (frame : DispatchedFrame)
  | poll (controllerId : String) (currentHostUs : UInt64)
  | hangUp

inductive DuplexAct (ε : Type) where
  | sent (frame : DispatchedFrame)
  | refused (error : ε)
  | returned (frames : List DispatchedFrame)
  | failed (error : TransportAdapterError ε)
  deriving DecidableEq

variable {τ ε : Type}

def DuplexAct.outcome : Except (TransportAdapterError ε) (List DispatchedFrame) → DuplexAct ε
  | .ok frames => .returned frames
  | .error e => .failed e

namespace DuplexState

def new (D : Duplex τ ε) : DuplexState τ where
  transport := D.pair
  reader _ := TransportStreamReader.new
  daemon _ := ControllerDaemon.new
  gone _ := false

def send (state : DuplexState τ) (D : Duplex τ ε) (endpoint : Endpoint)
    (frame : DispatchedFrame) : DuplexState τ × List (DuplexAct ε) :=
  match encodeDispatched frame with
  | none => (state, [])
  | some bytes =>
    match (D.sink endpoint).sendFrame bytes state.transport with
    | (.error e, transport) => ({ state with transport }, [.refused e])
    | (.ok (), transport) => ({ state with transport }, [.sent frame])

def poll (state : DuplexState τ) (D : Duplex τ ε) (endpoint : Endpoint) (controllerId : String)
    (currentHostUs : UInt64) : DuplexState τ × List (DuplexAct ε) :=
  let (result, reader, transport, daemon) := (state.reader endpoint).readAndDispatch
    (D.stream endpoint) state.transport (state.daemon endpoint) controllerId currentHostUs
  ({ state with
      transport
      reader := Function.update state.reader endpoint reader
      daemon := Function.update state.daemon endpoint daemon },
    [DuplexAct.outcome result])

/-- The owner of an endpoint that is gone does nothing any more. -/
def step (state : DuplexState τ) (D : Duplex τ ε) (endpoint : Endpoint) (event : DuplexEvent) :
    DuplexState τ × List (DuplexAct ε) :=
  if state.gone endpoint then (state, [])
  else match event with
    | .send frame => state.send D endpoint frame
    | .poll controllerId currentHostUs => state.poll D endpoint controllerId currentHostUs
    | .hangUp => ({ state with
        transport := D.hangUp endpoint state.transport
        gone := Function.update state.gone endpoint true }, [])

end DuplexState

/-- Both owners, in any order; each act with the endpoint it happened at. -/
def duplexMachine (D : Duplex τ ε) :
    Machine (DuplexState τ) (Endpoint × DuplexEvent) (Endpoint × DuplexAct ε) where
  step state input :=
    let (next, acts) := state.step D input.1 input.2
    (next, acts.map (input.1, ·))

/-- What the acts of a run sent to an endpoint. -/
def sentTo (endpoint : Endpoint) (acts : List (Endpoint × DuplexAct ε)) : List DispatchedFrame :=
  acts.flatMap fun act =>
    match act.2 with
    | .sent frame => if act.1.peer = endpoint then [frame] else []
    | _ => []

/-- What the acts of a run handed to the owner of an endpoint. -/
def returnedAt (endpoint : Endpoint) (acts : List (Endpoint × DuplexAct ε)) :
    List DispatchedFrame :=
  acts.flatMap fun act =>
    match act.2 with
    | .returned frames => if act.1 = endpoint then frames else []
    | _ => []

theorem sentTo_append (endpoint : Endpoint) (acts later : List (Endpoint × DuplexAct ε)) :
    sentTo endpoint (acts ++ later) = sentTo endpoint acts ++ sentTo endpoint later :=
  List.flatMap_append

theorem returnedAt_append (endpoint : Endpoint) (acts later : List (Endpoint × DuplexAct ε)) :
    returnedAt endpoint (acts ++ later) = returnedAt endpoint acts ++ returnedAt endpoint later :=
  List.flatMap_append

section Acts

variable (endpoint source : Endpoint) (frame : DispatchedFrame) (frames : List DispatchedFrame)

@[simp] theorem sentTo_sent : @sentTo ε endpoint [(source, .sent frame)] =
    if source.peer = endpoint then [frame] else [] := by
  simp [sentTo]

@[simp] theorem sentTo_returned : @sentTo ε endpoint [(source, .returned frames)] = [] := rfl

@[simp] theorem returnedAt_sent : @returnedAt ε endpoint [(source, .sent frame)] = [] := rfl

@[simp] theorem returnedAt_returned : @returnedAt ε endpoint [(source, .returned frames)] =
    if source = endpoint then frames else [] := by
  simp [returnedAt]

end Acts

/-- The bytes of a frame that was sent. -/
def wireBytes (frame : DispatchedFrame) : List UInt8 := (encodeDispatched frame).getD []

/-- The frames that are still to be handed over at an endpoint: encoded, they are what its codec
holds and what is on its way. -/
structure Pending (D : Duplex τ ε) (state : DuplexState τ) (endpoint : Endpoint)
    (pending : List DispatchedFrame) : Prop where
  encoded : ∀ frame ∈ pending, (encodeDispatched frame).isSome
  bytes : (pending.map wireBytes).flatten =
    (state.reader endpoint).codec.buffer ++ D.inFlight endpoint state.transport
  waits : frames.verdict (state.reader endpoint).codec.buffer = .wait
  capacity : (state.reader endpoint).codec.maxCapacity = defaultCodecCapacity

namespace Pending

variable {D : Duplex τ ε} {state next : DuplexState τ} {endpoint : Endpoint}
  {pending : List DispatchedFrame}

theorem of_new (D : Duplex τ ε) (endpoint : Endpoint) :
    Pending D (DuplexState.new D) endpoint [] where
  encoded := List.forall_mem_nil _
  bytes := (D.inFlight_of_readsLeft (D.readsLeft_pair endpoint)).symm
  waits := rfl
  capacity := rfl

/-- What a side holds changes only with its own codec and what is on its way to it. -/
theorem congr (h : Pending D state endpoint pending)
    (hreader : next.reader endpoint = state.reader endpoint)
    (hflight : D.inFlight endpoint next.transport = D.inFlight endpoint state.transport) :
    Pending D next endpoint pending where
  encoded := h.encoded
  bytes := by rw [hreader, hflight, h.bytes]
  waits := by rw [hreader]; exact h.waits
  capacity := by rw [hreader]; exact h.capacity

theorem wireBytes_of_isSome {frame : DispatchedFrame} (h : (encodeDispatched frame).isSome) :
    WellFramed (wireBytes frame) ∧ typedDecode (wireBytes frame) = some frame := by
  obtain ⟨bytes, hbytes⟩ := Option.isSome_iff_exists.mp h
  rw [wireBytes, hbytes]
  exact encodeDispatched_eq_some hbytes

theorem words (h : Pending D state endpoint pending) :
    ∀ word ∈ pending.map wireBytes, frames.verdict word = .accept word.length :=
  List.forall_mem_map.mpr fun frame hframe =>
    wellFramed_iff.mp (wireBytes_of_isSome (h.encoded frame hframe)).1

/-- With nothing on its way, everything was handed over: a codec holds no whole frame. -/
theorem eq_nil (h : Pending D state endpoint pending)
    (hflight : D.inFlight endpoint state.transport = []) : pending = [] := by
  have hbytes := h.bytes
  rw [hflight, List.append_nil] at hbytes
  exact List.map_eq_nil_iff.mp (Delimiter.eq_nil_of_wait h.words (hbytes ▸ h.waits))

theorem filterMap_typedDecode {taken : List DispatchedFrame}
    (h : ∀ frame ∈ taken, (encodeDispatched frame).isSome) :
    (taken.map wireBytes).filterMap typedDecode = taken := by
  induction taken with
  | nil => rfl
  | cons frame taken ih =>
    rw [List.forall_mem_cons] at h
    rw [List.map_cons, List.filterMap_cons_some (wireBytes_of_isSome h.1).2, ih h.2]

/-- The bytes of a read complete the first of the pending frames, and only those. -/
theorem drain (h : Pending D state endpoint pending) {fed : FrameCodec} {bytes rest : List UInt8}
    (hfed : fed.buffer = (state.reader endpoint).codec.buffer ++ bytes)
    (hflight : D.inFlight endpoint state.transport = bytes ++ rest) :
    ∃ later, pending = fed.drain.1.filterMap typedDecode ++ later ∧
      (∀ frame ∈ fed.drain.1, Accepted frame) ∧
      (∀ frame ∈ later, (encodeDispatched frame).isSome) ∧
      (later.map wireBytes).flatten = fed.drain.2.buffer ++ rest := by
  have hbytes := h.bytes
  rw [hflight, ← List.append_assoc, ← hfed] at hbytes
  obtain ⟨words, hwords, hleft⟩ := Delimiter.scan_of_words h.words hbytes.symm
  obtain ⟨taken, later, rfl, htaken, rfl⟩ := List.map_eq_append_iff.mp hwords
  obtain ⟨hframes, hbuffer⟩ := fed.drain_eq
  have hencoded := List.forall_mem_append.mp h.encoded
  rw [hframes, hbuffer, ← htaken]
  refine ⟨later, by rw [filterMap_typedDecode hencoded.1], ?_, hencoded.2, hleft.symm⟩
  refine List.forall_mem_map.mpr fun frame hframe => ?_
  rw [Accepted, (wireBytes_of_isSome (hencoded.1 frame hframe)).2]
  rfl

end Pending

/-! ## Steps -/

/-- A call whose read succeeds and whose frames are all accepted. -/
theorem readAndDispatch_of_accepted {reader : TransportStreamReader}
    {stream : StreamTransport τ ε} {s s' : τ}
    {bytes : { bytes : List UInt8 // bytes.length ≤ TransportStreamReader.readBufLen }}
    (hread : stream.readBytes TransportStreamReader.readBufLen s = (.ok bytes, s'))
    {fed : FrameCodec} (hfeed : reader.codec.feed bytes.val = (.ok (), fed))
    (haccepted : ∀ frame ∈ fed.drain.1, Accepted frame) (daemon : ControllerDaemon)
    (controllerId : String) (currentHostUs : UInt64) :
    ∃ next, reader.readAndDispatch stream s daemon controllerId currentHostUs =
      (.ok (fed.drain.1.filterMap typedDecode), ⟨fed.drain.2⟩, s', next) := by
  obtain ⟨next, hdispatch⟩ :=
    @dispatchFrames_accepted ε controllerId currentHostUs fed haccepted daemon []
  have hfeedIf := reader.codec.feed_if_pos bytes.val
  rw [hfeed] at hfeedIf
  refine ⟨next, ?_⟩
  simp only [TransportStreamReader.readAndDispatch, hread, hfeed, hfeedIf, hdispatch,
    List.nil_append]

section Step

variable (D : Duplex τ ε) (state : DuplexState τ) (endpoint : Endpoint)

theorem send_cases (frame : DispatchedFrame) :
    state.send D endpoint frame = (state, []) ∨
    (∃ e, state.send D endpoint frame = (state, [.refused e])) ∨
    ∃ bytes transport, encodeDispatched frame = some bytes ∧
      D.writeBytes endpoint bytes state.transport = (.ok (), transport) ∧
      state.send D endpoint frame = ({ state with transport }, [.sent frame]) := by
  rcases hencode : encodeDispatched frame with _ | bytes
  · exact .inl (by simp only [DuplexState.send, hencode])
  rcases hwrite : D.writeBytes endpoint bytes state.transport with ⟨e | _, transport⟩
  · obtain rfl := D.write_error hwrite
    exact .inr (.inl ⟨e, by simp only [DuplexState.send, hencode, Duplex.sink, hwrite]⟩)
  · refine .inr (.inr ⟨bytes, transport, rfl, hwrite, ?_⟩)
    simp only [DuplexState.send, hencode, Duplex.sink, hwrite]

variable {D state endpoint} {pending : List DispatchedFrame}

/-- A poll fails only when there is nothing left to read; otherwise it hands over the first of
the pending frames. -/
theorem poll_cases (h : Pending D state endpoint pending) (controllerId : String)
    (currentHostUs : UInt64) :
    (∃ e, state.poll D endpoint controllerId currentHostUs = (state, [.failed (.transport e)]) ∧
      D.readsLeft endpoint state.transport = 0) ∨
    ∃ next frames later,
      state.poll D endpoint controllerId currentHostUs = (next, [.returned frames]) ∧
      pending = frames ++ later ∧ Pending D next endpoint later ∧
      next.reader endpoint.peer = state.reader endpoint.peer ∧
      D.inFlight endpoint.peer next.transport = D.inFlight endpoint.peer state.transport ∧
      D.readsLeft endpoint next.transport ≤ D.readsLeft endpoint state.transport - 1 ∧
      next.gone = state.gone := by
  rcases hread : (D.stream endpoint).readBytes TransportStreamReader.readBufLen state.transport with
    ⟨e | bytes, transport⟩
  · obtain ⟨rfl, hleft⟩ := D.read_error hread
    refine .inl ⟨e, ?_, hleft⟩
    simp [DuplexState.poll, TransportStreamReader.readAndDispatch, hread, DuplexAct.outcome]
  obtain ⟨hflight, hpeer, hreads⟩ := D.read_ok hread
  have hroom : (state.reader endpoint).codec.buffer.length + bytes.val.length ≤
      (state.reader endpoint).codec.maxCapacity := by
    have hshort := frames.length_of_wait h.waits
    have hread := bytes.property
    rw [h.capacity]
    change _ < 142 at hshort
    change _ ≤ 568 at hread
    change _ ≤ 4096
    omega
  obtain ⟨fed, hfeed⟩ := FrameCodec.exists_feed _ _ hroom
  obtain ⟨hbuffer, hcapacity⟩ := FrameCodec.feed_eq_ok.mp hfeed
  obtain ⟨later, hpending, haccepted, hencoded, hleft⟩ := h.drain hbuffer hflight
  obtain ⟨daemon, hcall⟩ := readAndDispatch_of_accepted hread hfeed haccepted
    (state.daemon endpoint) controllerId currentHostUs
  have hpoll : state.poll D endpoint controllerId currentHostUs =
      ({ state with
          transport
          reader := Function.update state.reader endpoint ⟨fed.drain.2⟩
          daemon := Function.update state.daemon endpoint daemon },
        [.returned (fed.drain.1.filterMap typedDecode)]) := by
    simp only [DuplexState.poll, hcall, DuplexAct.outcome]
  refine .inr ⟨_, _, later, hpoll, hpending, ?_, ?_, hpeer, hreads (by decide), rfl⟩
  · refine ⟨hencoded, ?_, ?_, ?_⟩ <;> simp only [Function.update_self]
    · exact hleft
    · rw [fed.drain_eq.2]
      exact Delimiter.verdict_scan fed.buffer
    · exact fed.drain_maxCapacity.trans (hcapacity.trans h.capacity)
  · exact Function.update_of_ne (Endpoint.peer_ne endpoint) _ _

end Step

/-! ## Runs -/

/-- What was sent to an endpoint was handed over or is pending, and no reader has failed but for
its transport. -/
structure Conserved (D : Duplex τ ε) (state : DuplexState τ)
    (acts : List (Endpoint × DuplexAct ε)) : Prop where
  pending : ∀ endpoint, ∃ pending, Pending D state endpoint pending ∧
    sentTo endpoint acts = returnedAt endpoint acts ++ pending
  failures : ∀ endpoint error, (endpoint, .failed error) ∈ acts → ∃ e, error = .transport e

namespace Conserved

variable {D : Duplex τ ε} {state : DuplexState τ} {acts : List (Endpoint × DuplexAct ε)}

theorem of_new (D : Duplex τ ε) : Conserved D (DuplexState.new D) [] where
  pending endpoint := ⟨[], Pending.of_new D endpoint, rfl⟩
  failures := nofun

theorem congr (h : Conserved D state acts) {next : DuplexState τ}
    (hreader : next.reader = state.reader)
    (hflight : ∀ endpoint, D.inFlight endpoint next.transport =
      D.inFlight endpoint state.transport) : Conserved D next acts where
  pending := by
    intro endpoint
    obtain ⟨pending, hpending, hsent⟩ := h.pending endpoint
    exact ⟨pending, hpending.congr (congrFun hreader endpoint) (hflight endpoint), hsent⟩
  failures := h.failures

/-- A transport that refuses to write or to read changes nothing. -/
theorem quiet (h : Conserved D state acts) (source : Endpoint) {act : DuplexAct ε}
    (hact : (∃ e, act = .refused e) ∨ ∃ e, act = .failed (.transport e)) :
    Conserved D state (acts ++ [(source, act)]) where
  pending := by
    intro endpoint
    obtain ⟨pending, hpending, hsent⟩ := h.pending endpoint
    have hnone : sentTo endpoint [(source, act)] = [] ∧
        returnedAt endpoint [(source, act)] = [] := by
      rcases hact with ⟨e, rfl⟩ | ⟨e, rfl⟩ <;> exact ⟨rfl, rfl⟩
    refine ⟨pending, hpending, ?_⟩
    rw [sentTo_append, returnedAt_append, hnone.1, hnone.2, List.append_nil, List.append_nil,
      hsent]
  failures := by
    intro endpoint error herror
    rcases List.mem_append.mp herror with hearlier | hnow
    · exact h.failures endpoint error hearlier
    · cases List.mem_singleton.mp hnow
      rcases hact with ⟨e, he⟩ | ⟨e, he⟩ <;> cases he
      exact ⟨e, rfl⟩

theorem sent (h : Conserved D state acts) {source : Endpoint} {frame : DispatchedFrame}
    {bytes : List UInt8} {transport : τ} (hencode : encodeDispatched frame = some bytes)
    (hwrite : D.writeBytes source bytes state.transport = (.ok (), transport)) :
    Conserved D { state with transport } (acts ++ [(source, .sent frame)]) where
  pending := by
    intro endpoint
    obtain ⟨hpeer, hsource⟩ := D.write_ok hwrite
    obtain ⟨pending, hpending, hsent⟩ := h.pending endpoint
    rcases source.eq_or_peer_eq endpoint with rfl | rfl
    · refine ⟨pending, hpending.congr rfl hsource, ?_⟩
      simp [sentTo_append, returnedAt_append, hsent]
    · refine ⟨pending ++ [frame], ⟨?_, ?_, hpending.waits, hpending.capacity⟩, ?_⟩
      · refine List.forall_mem_append.mpr ⟨hpending.encoded, List.forall_mem_singleton.mpr ?_⟩
        rw [hencode]
        rfl
      · have hbytes := hpending.bytes
        simp [wireBytes, hencode, hbytes, hpeer]
      · simp [sentTo_append, returnedAt_append, hsent]
  failures := by
    intro endpoint error herror
    exact h.failures endpoint error (by simpa using herror)

theorem poll (h : Conserved D state acts) (source : Endpoint) (controllerId : String)
    (currentHostUs : UInt64) :
    Conserved D (state.poll D source controllerId currentHostUs).1
      (acts ++ (state.poll D source controllerId currentHostUs).2.map (source, ·)) := by
  obtain ⟨mine, hmine, hsent⟩ := h.pending source
  rcases poll_cases hmine controllerId currentHostUs with
    ⟨e, hpoll, -⟩ | ⟨next, frames, later, hpoll, rfl, hlater, hreader, hflight, -, -⟩
  · rw [hpoll]
    exact h.quiet source (Or.inr ⟨e, rfl⟩)
  rw [hpoll]
  refine ⟨fun endpoint => ?_, fun endpoint error herror => ?_⟩
  · rcases source.eq_or_peer_eq endpoint with rfl | rfl
    · refine ⟨later, hlater, ?_⟩
      simp [sentTo_append, returnedAt_append, hsent]
    · obtain ⟨pending, hpending, hsent⟩ := h.pending source.peer
      refine ⟨pending, hpending.congr hreader hflight, ?_⟩
      simp [sentTo_append, returnedAt_append, hsent]
  · exact h.failures endpoint error (by simpa using herror)

theorem step (h : Conserved D state acts) (input : Endpoint × DuplexEvent) :
    Conserved D ((duplexMachine D).step state input).1
      (acts ++ ((duplexMachine D).step state input).2) := by
  obtain ⟨source, event⟩ := input
  simp only [duplexMachine, DuplexState.step]
  split
  · simpa using h
  cases event with
  | send frame =>
    rcases send_cases D state source frame with hsend | ⟨e, hsend⟩ | ⟨bytes, transport, hencode,
      hwrite, hsend⟩
    · simpa only [hsend, List.map_nil, List.append_nil] using h
    · simp only [hsend, List.map_cons, List.map_nil]
      exact h.quiet source (Or.inl ⟨e, rfl⟩)
    · simp only [hsend, List.map_cons, List.map_nil]
      exact h.sent hencode hwrite
  | poll controllerId currentHostUs => exact h.poll source controllerId currentHostUs
  | hangUp =>
    simp only [List.map_nil, List.append_nil]
    exact h.congr rfl fun _ => D.inFlight_hangUp

end Conserved

/-- The polls of one side. -/
def pollsAt (endpoint : Endpoint) (polls : List (String × UInt64)) :
    List (Endpoint × DuplexEvent) :=
  polls.map fun poll => (endpoint, .poll poll.1 poll.2)

/-- Polls alone hand over what is pending, as far as the reads go. -/
theorem run_pollsAt {D : Duplex τ ε} {state : DuplexState τ} {endpoint : Endpoint}
    {pending : List DispatchedFrame} (h : Pending D state endpoint pending)
    (hopen : state.gone endpoint = false) (polls : List (String × UInt64)) :
    ∃ later, Pending D ((duplexMachine D).run state (pollsAt endpoint polls)).1 endpoint later ∧
      pending =
        returnedAt endpoint ((duplexMachine D).run state (pollsAt endpoint polls)).2 ++ later ∧
      D.readsLeft endpoint ((duplexMachine D).run state (pollsAt endpoint polls)).1.transport ≤
        D.readsLeft endpoint state.transport - polls.length := by
  induction polls generalizing state pending with
  | nil => exact ⟨pending, h, rfl, Nat.le_refl _⟩
  | cons poll polls ih =>
    have hstep : (duplexMachine D).step state (endpoint, .poll poll.1 poll.2) =
        ((state.poll D endpoint poll.1 poll.2).1,
          (state.poll D endpoint poll.1 poll.2).2.map (endpoint, ·)) := by
      simp [duplexMachine, DuplexState.step, hopen]
    rw [pollsAt, List.map_cons, ← pollsAt, Machine.run_cons, hstep]
    rcases poll_cases h poll.1 poll.2 with
      ⟨e, hpoll, hzero⟩ | ⟨next, frames, later, hpoll, rfl, hlater, -, -, hreads, hgone⟩
    · obtain ⟨rest, hrest, hpending, hleft⟩ := ih h hopen
      rw [hpoll]
      refine ⟨rest, hrest, ?_, by simp only [List.length_cons]; omega⟩
      rw [hpending, returnedAt_append]
      rfl
    · obtain ⟨rest, hrest, hpending, hleft⟩ := ih hlater (hgone ▸ hopen)
      rw [hpoll]
      refine ⟨rest, hrest, ?_, by simp only [List.length_cons]; omega⟩
      rw [List.map_singleton, returnedAt_append, returnedAt_returned, if_pos rfl, hpending,
        List.append_assoc]

/-- Whatever two connected sides do and in whatever order, a side is handed exactly what the other
one sent, in order, short of what its codec holds and what is on its way; no reader fails but
for its transport, and then it has been handed everything. Enough polls of a side hand it all. -/
theorem duplex_delivers (D : Duplex τ ε) (events : List (Endpoint × DuplexEvent))
    (endpoint : Endpoint) :
    let final := (duplexMachine D).run (DuplexState.new D) events
    (∃ pending, sentTo endpoint final.2 = returnedAt endpoint final.2 ++ pending ∧
      (pending.map wireBytes).flatten = (final.1.reader endpoint).codec.buffer ++
        D.inFlight endpoint final.1.transport) ∧
    (∀ error, (endpoint, .failed error) ∈ final.2 → ∃ e, error = .transport e) ∧
    (∀ controllerId currentHostUs error,
      (final.1.poll D endpoint controllerId currentHostUs).2 = [.failed error] →
        returnedAt endpoint final.2 = sentTo endpoint final.2) ∧
    ∀ polls : List (String × UInt64), final.1.gone endpoint = false →
      D.readsLeft endpoint final.1.transport ≤ polls.length →
        returnedAt endpoint
            (final.2 ++ ((duplexMachine D).run final.1 (pollsAt endpoint polls)).2) =
          sentTo endpoint final.2 := by
  intro final
  have hconserved : Conserved D final.1 final.2 :=
    Machine.run_invariant (fun state acts input h => h.step input) (Conserved.of_new D) events
  obtain ⟨pending, hpending, hsent⟩ := hconserved.pending endpoint
  refine ⟨⟨pending, hsent, hpending.bytes⟩, hconserved.failures endpoint, ?_, ?_⟩
  · intro controllerId currentHostUs error herror
    rcases poll_cases hpending controllerId currentHostUs with
      ⟨e, -, hzero⟩ | ⟨next, frames, later, hpoll, -⟩
    · rw [hsent, hpending.eq_nil (D.inFlight_of_readsLeft hzero), List.append_nil]
    · rw [hpoll] at herror
      cases herror
  · intro polls hopen henough
    obtain ⟨later, hlater, rfl, hleft⟩ := run_pollsAt hpending hopen polls
    have hzero := D.inFlight_of_readsLeft (Nat.le_zero.mp (hleft.trans (by omega)))
    rw [returnedAt_append, hsent, hlater.eq_nil hzero, List.append_nil]

/-- Over a channel: two frames in one direction and the sender gone, then polls at the other
side. -/
theorem duplex_delivers_channel :
    let events : List (Endpoint × DuplexEvent) :=
      [(.endpoint1, .send (.clockRequest ⟨7⟩)),
        (.endpoint1, .send (.command ⟨8, none, .heartbeat⟩)), (.endpoint1, .hangUp)]
    let channel := ChannelTransport.duplex
    let final := (duplexMachine channel).run (DuplexState.new channel) events
    returnedAt .endpoint2 (final.2 ++ ((duplexMachine channel).run final.1
        (pollsAt .endpoint2 (List.replicate 40 ("axis", 5)))).2) =
      [.clockRequest ⟨7⟩, .command ⟨8, none, .heartbeat⟩] := by
  intro events channel final
  have hdelivers := (duplex_delivers ChannelTransport.duplex events .endpoint2).2.2.2
    (List.replicate 40 ("axis", 5)) (by decide +kernel) (by decide +kernel)
  rw [hdelivers]
  decide +kernel

end Dryer.TransportAdapter
