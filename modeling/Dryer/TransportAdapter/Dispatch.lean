import Dryer.Library.Machine
import Dryer.TransportAdapter.StreamReader

/-!
# What a stream reader returns and keeps

A call returns everything it took from the codec when all of it decodes. When a frame is
rejected, the call leaves at once: the frames decoded before it in the same call are lost,
and the bytes behind it stay in the codec.
-/
namespace Dryer.TransportAdapter
open Library ControlProtocol ControlClient Daemon

/-- What the typed decoder for the message type of a frame makes of it. -/
def typedDecode (frameBytes : List UInt8) : Option DispatchedFrame :=
  let messageType := byteAt frameBytes 3
  if messageType = queueStatusMessageType then
    ((decodeQueueStatusFrame frameBytes).map .queueStatus).toOption
  else if messageType = clockResponseMessageType then
    ((decodeClockResponseFrame frameBytes).map .clockResponse).toOption
  else if messageType = clockRequestMessageType then
    ((decodeClockRequest frameBytes).map .clockRequest).toOption
  else if messageType = commandMessageType then
    ((decodeCommand frameBytes).map .command).toOption
  else some (.raw messageType frameBytes)

section Dispatch

variable {ε : Type} (daemon : ControllerDaemon) (controllerId : String) (currentHostUs : UInt64)

/-- The outcome of a dispatch is that of the typed decoder. -/
def Dispatches (frameBytes : List UInt8)
    (result : Except (TransportAdapterError ε) DispatchedFrame) : Prop :=
  match result with
  | .ok frame => typedDecode frameBytes = some frame
  | .error e => typedDecode frameBytes = none ∧ ∀ codecError, e ≠ .codec codecError

theorem dispatches_decodedAs {α : Type} {event : α → DispatchedFrame} {frameBytes : List UInt8}
    {result : Except DecodeError α}
    (h : typedDecode frameBytes = (result.map event).toOption) :
    @Dispatches ε frameBytes (decodedAs event result) := by
  cases result with
  | error e => exact ⟨h, fun _ => nofun⟩
  | ok frame => exact h

theorem dispatches_dispatchFrame {frameBytes : List UInt8}
    (hlength : headerLen ≤ frameBytes.length) :
    Dispatches frameBytes
      (@dispatchFrame ε frameBytes daemon controllerId currentHostUs).1 := by
  rw [dispatchFrame, if_neg (Nat.not_lt.mpr hlength)]
  dsimp only
  split_ifs with hstatus hresponse hrequest hcommand
  · have hupdate := daemon.updateQueueStatus_result controllerId frameBytes currentHostUs
    rcases hresult : daemon.updateQueueStatus controllerId frameBytes currentHostUs with
      ⟨e | status, next⟩
    · rw [hresult] at hupdate
      refine ⟨?_, fun _ => nofun⟩
      rcases hdecode : decodeQueueStatusFrame frameBytes with _ | frame
      · rw [typedDecode, if_pos hstatus, hdecode]
        rfl
      · rw [hdecode] at hupdate
        cases hupdate
    · exact dispatches_decodedAs (by rw [typedDecode, if_pos hstatus])
  · exact dispatches_decodedAs (by rw [typedDecode, if_neg hstatus, if_pos hresponse])
  · exact dispatches_decodedAs (by
      rw [typedDecode, if_neg hstatus, if_neg hresponse, if_pos hrequest])
  · exact dispatches_decodedAs (by
      rw [typedDecode, if_neg hstatus, if_neg hresponse, if_neg hrequest, if_pos hcommand])
  · change typedDecode frameBytes = some _
    rw [typedDecode, if_neg hstatus, if_neg hresponse, if_neg hrequest, if_neg hcommand]

end Dispatch

/-! ## One drain -/

/-- The typed decoder for the frame takes it. -/
def Accepted (frameBytes : List UInt8) : Prop := (typedDecode frameBytes).isSome

instance (frameBytes : List UInt8) : Decidable (Accepted frameBytes) :=
  inferInstanceAs (Decidable ((typedDecode frameBytes).isSome = true))

/-- The frames that a drain takes: all up to the first that is rejected, and that one. -/
def untilRejected : List (List UInt8) → List (List UInt8)
  | [] => []
  | frame :: later => if Accepted frame then frame :: untilRejected later else [frame]

namespace FrameCodec

theorem length_of_drain_cons {codec : FrameCodec} {frame : List UInt8} {later : List (List UInt8)}
    (h : codec.drain.1 = frame :: later) :
    ∃ rest, codec.nextFrame = (.ok (some frame), rest) ∧ rest.drain = (later, codec.drain.2) ∧
      headerLen + checksumLen ≤ frame.length ∧
      frame.length + rest.buffer.length ≤ codec.buffer.length ∧
      rest.maxCapacity = codec.maxCapacity := by
  rcases nextFrame_cases codec with ⟨rest, hnext, -⟩ | ⟨word, rest, hnext, hword⟩
  · rw [drain_of_none hnext] at h
    cases h
  · obtain ⟨hverdict, hlength⟩ := Delimiter.verdict_of_next_some hword
    have hframed := wellFramed_iff.mpr hverdict
    have hcapacity := (nextFrame_eq codec).2.2
    have hheader := headerLen_le_payloadEnd word
    have hwhole := hframed.length
    rw [hnext] at hcapacity
    rw [drain_of_some hnext] at h ⊢
    cases h
    refine ⟨rest, hnext, rfl, ?_, hlength, hcapacity⟩
    rw [hwhole, checksumLen]
    omega

theorem nextFrame_of_drain_nil {codec : FrameCodec} (h : codec.drain.1 = []) :
    codec.nextFrame = (.ok none, codec.drain.2) := by
  rcases nextFrame_cases codec with ⟨rest, hnext, -⟩ | ⟨word, rest, hnext, hword⟩
  · rw [drain_of_none hnext, hnext]
  · rw [drain_of_some hnext] at h
    cases h

theorem drain_maxCapacity (codec : FrameCodec) : codec.drain.2.maxCapacity = codec.maxCapacity := by
  generalize hframes : codec.drain.1 = frames
  induction frames generalizing codec with
  | nil =>
    have hcapacity := (nextFrame_eq codec).2.2
    rwa [nextFrame_of_drain_nil hframes] at hcapacity
  | cons frame later ih =>
    obtain ⟨rest, -, hdrain, -, -, hcapacity⟩ := length_of_drain_cons hframes
    have hlast := ih rest (congrArg Prod.fst hdrain)
    rw [hdrain] at hlast
    exact hlast.trans hcapacity

/-- A drained codec holds less than one frame. -/
theorem length_drain (codec : FrameCodec) : codec.drain.2.buffer.length < maxFrameLen := by
  rw [(drain_eq codec).2]
  exact frames.length_of_wait (Delimiter.verdict_scan codec.buffer)

end FrameCodec

section Drain

variable {ε : Type} (controllerId : String) (currentHostUs : UInt64)

theorem dispatchFrames_of_none {codec rest : FrameCodec}
    (h : codec.nextFrame = (.ok none, rest)) (daemon : ControllerDaemon)
    (dispatched : List DispatchedFrame) :
    @dispatchFrames ε codec daemon controllerId currentHostUs dispatched =
      (.ok dispatched, rest, daemon) := by
  rw [dispatchFrames]
  split <;> simp_all

theorem dispatchFrames_of_some {codec rest : FrameCodec} {frame : List UInt8}
    (h : codec.nextFrame = (.ok (some frame), rest)) (daemon : ControllerDaemon)
    (dispatched : List DispatchedFrame) :
    @dispatchFrames ε codec daemon controllerId currentHostUs dispatched =
      match dispatchFrame frame daemon controllerId currentHostUs with
      | (.error e, daemon) => (.error e, rest, daemon)
      | (.ok frame, daemon) =>
        dispatchFrames rest daemon controllerId currentHostUs (dispatched ++ [frame]) := by
  rw [dispatchFrames]
  split
  case h_1 hnext => simp [h] at hnext
  case h_2 hnext => simp [h] at hnext
  case h_3 hnext =>
    rw [h] at hnext
    cases hnext
    rfl

/-- An accepted frame is added to what the call returns. -/
theorem dispatchFrames_of_accepted {codec rest : FrameCodec} {frame : List UInt8}
    (h : codec.nextFrame = (.ok (some frame), rest)) (hlength : headerLen ≤ frame.length)
    (haccepted : Accepted frame) (daemon : ControllerDaemon) (dispatched : List DispatchedFrame) :
    ∃ decoded next, typedDecode frame = some decoded ∧
      @dispatchFrames ε codec daemon controllerId currentHostUs dispatched =
        dispatchFrames rest next controllerId currentHostUs (dispatched ++ [decoded]) := by
  have hdispatch := @dispatches_dispatchFrame ε daemon controllerId currentHostUs _ hlength
  rw [dispatchFrames_of_some controllerId currentHostUs h]
  rcases hresult : @dispatchFrame ε frame daemon controllerId currentHostUs with
    ⟨e | decoded, next⟩
  · rw [hresult] at hdispatch
    rw [Accepted, hdispatch.1] at haccepted
    cases haccepted
  · rw [hresult] at hdispatch
    exact ⟨decoded, next, hdispatch, rfl⟩

/-- A rejected frame ends the call. -/
theorem dispatchFrames_of_rejected {codec rest : FrameCodec} {frame : List UInt8}
    (h : codec.nextFrame = (.ok (some frame), rest)) (hlength : headerLen ≤ frame.length)
    (hrejected : ¬ Accepted frame) (daemon : ControllerDaemon)
    (dispatched : List DispatchedFrame) :
    ∃ e next, @dispatchFrames ε codec daemon controllerId currentHostUs dispatched =
      (.error e, rest, next) ∧ ∀ codecError, e ≠ .codec codecError := by
  have hdispatch := @dispatches_dispatchFrame ε daemon controllerId currentHostUs _ hlength
  rw [dispatchFrames_of_some controllerId currentHostUs h]
  rcases hresult : @dispatchFrame ε frame daemon controllerId currentHostUs with
    ⟨e | decoded, next⟩
  · rw [hresult] at hdispatch
    exact ⟨e, next, rfl, hdispatch.2⟩
  · rw [hresult] at hdispatch
    rw [Accepted, show typedDecode frame = some decoded from hdispatch] at hrejected
    exact absurd rfl hrejected

/-- When every frame is accepted, all of them are returned and the codec is drained. -/
theorem dispatchFrames_accepted {codec : FrameCodec}
    (haccepted : ∀ frame ∈ codec.drain.1, Accepted frame) (daemon : ControllerDaemon)
    (dispatched : List DispatchedFrame) :
    ∃ next, @dispatchFrames ε codec daemon controllerId currentHostUs dispatched =
      (.ok (dispatched ++ codec.drain.1.filterMap typedDecode), codec.drain.2, next) := by
  generalize hframes : codec.drain.1 = frames at haccepted
  induction frames generalizing codec daemon dispatched with
  | nil =>
    rw [dispatchFrames_of_none controllerId currentHostUs (codec.nextFrame_of_drain_nil hframes)]
    exact ⟨daemon, by simp⟩
  | cons frame later ih =>
    obtain ⟨rest, hnext, hdrain, hlength, -, -⟩ := FrameCodec.length_of_drain_cons hframes
    rw [List.forall_mem_cons] at haccepted
    obtain ⟨decoded, next, hdecoded, hstep⟩ := @dispatchFrames_of_accepted ε controllerId
      currentHostUs _ _ _ hnext (by omega) haccepted.1 daemon dispatched
    obtain ⟨last, hlast⟩ := @ih rest next (dispatched ++ [decoded])
      (congrArg Prod.fst hdrain) haccepted.2
    rw [hdrain] at hlast
    exact ⟨last, by rw [hstep, hlast]; simp [hdecoded]⟩

/-- When a frame is rejected, the call fails and the bytes behind that frame stay. -/
theorem dispatchFrames_rejected {codec : FrameCodec}
    (hrejected : ¬ ∀ frame ∈ codec.drain.1, Accepted frame) (daemon : ControllerDaemon)
    (dispatched : List DispatchedFrame) :
    ∃ e rest next, @dispatchFrames ε codec daemon controllerId currentHostUs dispatched =
        (.error e, rest, next) ∧ (∀ codecError, e ≠ .codec codecError) ∧
      headerLen + checksumLen + rest.buffer.length ≤ codec.buffer.length ∧
      rest.maxCapacity = codec.maxCapacity := by
  generalize hframes : codec.drain.1 = frames at hrejected
  induction frames generalizing codec daemon dispatched with
  | nil => exact absurd (List.forall_mem_nil _) hrejected
  | cons frame later ih =>
    obtain ⟨rest, hnext, hdrain, hlength, hroom, hcapacity⟩ :=
      FrameCodec.length_of_drain_cons hframes
    by_cases haccepted : Accepted frame
    · obtain ⟨decoded, next, -, hstep⟩ := @dispatchFrames_of_accepted ε controllerId
        currentHostUs _ _ _ hnext (by omega) haccepted daemon dispatched
      obtain ⟨e, last, final, hlast, hkind, hlastRoom, hlastCapacity⟩ :=
        @ih rest next (dispatched ++ [decoded]) (congrArg Prod.fst hdrain)
          (fun hall => hrejected (List.forall_mem_cons.mpr ⟨haccepted, hall⟩))
      exact ⟨e, last, final, hstep.trans hlast, hkind, by omega, hlastCapacity.trans hcapacity⟩
    · obtain ⟨e, next, hstep, hkind⟩ := @dispatchFrames_of_rejected ε controllerId
        currentHostUs _ _ _ hnext (by omega) haccepted daemon dispatched
      exact ⟨e, rest, next, hstep, hkind, by omega, hcapacity⟩

/-- The frames up to the first rejected one are exactly those that the call took. -/
theorem dispatchFrames_calls (codec : FrameCodec) (daemon : ControllerDaemon)
    (dispatched : List DispatchedFrame) :
    ∃ n, codec.calls (List.replicate n .nextFrame) = .ok (untilRejected codec.drain.1,
      (@dispatchFrames ε codec daemon controllerId currentHostUs dispatched).2.1) := by
  generalize hframes : codec.drain.1 = frames
  induction frames generalizing codec daemon dispatched with
  | nil =>
    have hnext := codec.nextFrame_of_drain_nil hframes
    refine ⟨1, ?_⟩
    rw [dispatchFrames_of_none controllerId currentHostUs hnext]
    simp [FrameCodec.calls, hnext, untilRejected]
  | cons frame later ih =>
    obtain ⟨rest, hnext, hdrain, hlength, -, -⟩ := FrameCodec.length_of_drain_cons hframes
    by_cases haccepted : Accepted frame
    · obtain ⟨decoded, next, -, hstep⟩ := @dispatchFrames_of_accepted ε controllerId
        currentHostUs _ _ _ hnext (by omega) haccepted daemon dispatched
      obtain ⟨n, hn⟩ := ih rest next (dispatched ++ [decoded]) (congrArg Prod.fst hdrain)
      refine ⟨n + 1, ?_⟩
      simp [FrameCodec.calls, List.replicate_succ, hnext, hn, hstep, untilRejected, haccepted]
    · obtain ⟨e, next, hstep, -⟩ := @dispatchFrames_of_rejected ε controllerId
        currentHostUs _ _ _ hnext (by omega) haccepted daemon dispatched
      refine ⟨1, ?_⟩
      simp [FrameCodec.calls, hnext, hstep, untilRejected, haccepted]

end Drain

end Dryer.TransportAdapter
