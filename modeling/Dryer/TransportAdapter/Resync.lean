import Dryer.TransportAdapter.Framing

/-!
# Runs of the codec

What comes out of a codec is decided by the bytes that went in: not by how they were cut
into chunks, nor by when frames were taken. Frames come out in place and in order, and none
is lost unless an earlier one overlaps it.
-/
namespace Dryer.TransportAdapter
open Library ControlProtocol

namespace FrameCodec

theorem nextFrame_cases (codec : FrameCodec) :
    (∃ rest, codec.nextFrame = (.ok none, rest) ∧
      frames.next codec.buffer = (none, rest.buffer)) ∨
    ∃ frame rest, codec.nextFrame = (.ok (some frame), rest) ∧
      frames.next codec.buffer = (some frame, rest.buffer) := by
  obtain ⟨hresult, hbuffer, -⟩ := nextFrame_eq codec
  match hframe : (frames.next codec.buffer).1 with
  | none =>
    rw [hframe] at hresult
    exact Or.inl ⟨_, Prod.ext hresult rfl, Prod.ext hframe hbuffer.symm⟩
  | some frame =>
    rw [hframe] at hresult
    exact Or.inr ⟨frame, _, Prod.ext hresult rfl, Prod.ext hframe hbuffer.symm⟩

theorem next_of_nextFrame {codec rest : FrameCodec} {frame : Option (List UInt8)}
    (h : codec.nextFrame = (.ok frame, rest)) :
    frames.next codec.buffer = (frame, rest.buffer) := by
  obtain ⟨hresult, hbuffer, -⟩ := nextFrame_eq codec
  rw [h] at hresult hbuffer
  exact Prod.ext (Except.ok.inj hresult).symm hbuffer.symm

theorem length_of_nextFrame {codec rest : FrameCodec} {frame : List UInt8}
    (h : codec.nextFrame = (.ok (some frame), rest)) :
    rest.buffer.length < codec.buffer.length :=
  Delimiter.length_of_next_some (next_of_nextFrame h)

/-- Call `nextFrame` until it returns no frame. -/
def drain (codec : FrameCodec) : List (List UInt8) × FrameCodec :=
  match _h : codec.nextFrame with
  | (.ok (some frame), rest) =>
    let (frames, last) := rest.drain
    (frame :: frames, last)
  | (_, rest) => ([], rest)
termination_by codec.buffer.length
decreasing_by exact length_of_nextFrame _h

theorem drain_of_none {codec rest : FrameCodec} (h : codec.nextFrame = (.ok none, rest)) :
    codec.drain = ([], rest) := by
  rw [drain]
  split <;> simp_all

theorem drain_of_some {codec rest : FrameCodec} {frame : List UInt8}
    (h : codec.nextFrame = (.ok (some frame), rest)) :
    codec.drain = (frame :: rest.drain.1, rest.drain.2) := by
  rw [drain]
  split <;> simp_all

/-- Draining scans the buffer. -/
theorem drain_eq (codec : FrameCodec) :
    codec.drain.1 = (frames.scan codec.buffer).1 ∧
      codec.drain.2.buffer = (frames.scan codec.buffer).2 := by
  induction hn : codec.buffer.length using Nat.strongRecOn generalizing codec with
  | _ n ih =>
    rcases nextFrame_cases codec with ⟨rest, hnext, hscan⟩ | ⟨frame, rest, hnext, hscan⟩
    · rw [drain_of_none hnext, (Delimiter.scan_of_next_none hscan).1]
      exact ⟨rfl, rfl⟩
    · have hrest := ih _ (hn ▸ length_of_nextFrame hnext) rest rfl
      rw [drain_of_some hnext, Delimiter.scan_of_next_some hscan]
      exact ⟨congrArg _ hrest.1, hrest.2⟩

theorem feed_eq_ok {codec codec' : FrameCodec} {data : List UInt8} {u : Unit} :
    codec.feed data = (.ok u, codec') ↔
      codec'.buffer = codec.buffer ++ data ∧ codec'.maxCapacity = codec.maxCapacity := by
  unfold feed
  split
  · rename_i hover
    constructor
    · intro h
      cases h
    · rintro ⟨hbuffer, hcapacity⟩
      have hbounded := codec'.bounded
      rw [hbuffer, hcapacity, List.length_append] at hbounded
      omega
  · constructor
    · intro h
      cases h
      exact ⟨rfl, rfl⟩
    · rintro ⟨hbuffer, hcapacity⟩
      exact Prod.ext rfl (FrameCodec.ext hbuffer.symm hcapacity.symm)

/-- Feed each chunk and drain the codec after it. -/
def pump (codec : FrameCodec) :
    List (List UInt8) → Except FrameCodecError (List (List UInt8) × FrameCodec)
  | [] => .ok ([], codec)
  | chunk :: chunks =>
    match codec.feed chunk with
    | (.error e, _) => .error e
    | (.ok (), fed) => do
      let (frames, rest) := fed.drain
      let (later, last) ← rest.pump chunks
      pure (frames ++ later, last)

/-- One call of a codec's owner. -/
inductive Call where
  | feed (data : List UInt8)
  | nextFrame

/-- Any sequence of calls, with the frames they return. -/
def calls (codec : FrameCodec) :
    List Call → Except FrameCodecError (List (List UInt8) × FrameCodec)
  | [] => .ok ([], codec)
  | .feed data :: rest =>
    match codec.feed data with
    | (.error e, _) => .error e
    | (.ok (), fed) => fed.calls rest
  | .nextFrame :: rest =>
    match codec.nextFrame with
    | (.error e, _) => .error e
    | (.ok frame, taken) => do
      let (later, last) ← taken.calls rest
      pure (frame.toList ++ later, last)

/-- The bytes that a sequence of calls feeds. -/
def fedBytes : List Call → List UInt8
  | [] => []
  | .feed data :: rest => data ++ fedBytes rest
  | .nextFrame :: rest => fedBytes rest

/-- What a pump takes out, and what it leaves, accounts for what was fed. -/
theorem emitted_pump {codec last : FrameCodec} {stream : List UInt8}
    {words out chunks : List (List UInt8)} (hwords : frames.Emitted stream words codec.buffer)
    (hwait : frames.verdict codec.buffer = .wait) (h : codec.pump chunks = .ok (out, last)) :
    frames.Emitted (stream ++ chunks.flatten) (words ++ out) last.buffer ∧
      frames.verdict last.buffer = .wait := by
  induction chunks generalizing codec stream words out with
  | nil =>
    cases h
    simpa using ⟨hwords, hwait⟩
  | cons chunk chunks ih =>
    simp only [pump] at h
    split at h
    · cases h
    · rename_i fed hfeed
      obtain ⟨hbuffer, -⟩ := feed_eq_ok.mp hfeed
      obtain ⟨hframes, hrest⟩ := drain_eq fed
      obtain ⟨⟨later, last'⟩, hlater, hout⟩ := bind_eq_ok.mp h
      cases hout
      have hstep := (hwords.feed chunk).scan
      rw [← hbuffer, ← hframes, ← hrest] at hstep
      have hstop := Delimiter.verdict_scan (D := frames) fed.buffer
      rw [← hrest] at hstop
      have hdone := ih hstep hstop hlater
      simpa using hdone

/-- A chunk that fits is fed. -/
theorem exists_feed (codec : FrameCodec) (data : List UInt8)
    (h : codec.buffer.length + data.length ≤ codec.maxCapacity) :
    ∃ fed, codec.feed data = (.ok (), fed) := by
  rw [feed, dif_neg (by omega)]
  exact ⟨_, rfl⟩

/-- The frames, and the bytes left over, do not depend on how a stream is cut. -/
theorem pump_chunks {capacity : Nat} {chunks out : List (List UInt8)} {last : FrameCodec}
    (h : (withCapacity capacity).pump chunks = .ok (out, last)) {large : Nat}
    (hlarge : chunks.flatten.length ≤ large) :
    ∃ whole, (withCapacity large).pump [chunks.flatten] = .ok (out, whole) ∧
      whole.buffer = last.buffer := by
  obtain ⟨hemitted, hwait⟩ := emitted_pump (Delimiter.Emitted.nil (D := frames)) rfl h
  have hscan := hemitted.scan_eq hwait
  simp only [List.nil_append] at hscan
  obtain ⟨fed, hfed⟩ := exists_feed (withCapacity large) chunks.flatten
    (by simpa [withCapacity] using hlarge)
  obtain ⟨hbuffer, -⟩ := feed_eq_ok.mp hfed
  obtain ⟨hframes, hrest⟩ := drain_eq fed
  simp only [withCapacity, List.nil_append] at hbuffer
  rw [hbuffer, hscan] at hframes hrest
  refine ⟨fed.drain.2, ?_, hrest⟩
  simp [pump, hfed, hframes]

/-- A clock request behind noise and in front of a first magic byte, in three chunks. -/
theorem pump_chunks_request :
    ∃ whole, (withCapacity 64).pump
        [[1, 68, 82, 1, 3, 7, 0, 0, 0, 1, 0, 0, 117, 27, 59, 44, 68]] =
          .ok ([[68, 82, 1, 3, 7, 0, 0, 0, 1, 0, 0, 117, 27, 59, 44]], whole) ∧
      whole.buffer = [68] :=
  @pump_chunks 32 [[1, 68, 82, 1, 3, 7], [0, 0, 0, 1, 0, 0, 117, 27], [59, 44, 68]]
    [[68, 82, 1, 3, 7, 0, 0, 0, 1, 0, 0, 117, 27, 59, 44]] ⟨[68], 32, by decide⟩
    (by decide +kernel) 64 (by decide)

theorem emitted_calls {codec last : FrameCodec} {stream : List UInt8}
    {words out : List (List UInt8)} {steps : List Call}
    (hwords : frames.Emitted stream words codec.buffer)
    (h : codec.calls steps = .ok (out, last)) :
    frames.Emitted (stream ++ fedBytes steps) (words ++ out) last.buffer := by
  induction steps generalizing codec stream words out with
  | nil =>
    cases h
    simpa [fedBytes] using hwords
  | cons step steps ih =>
    cases step with
    | feed data =>
      simp only [calls] at h
      split at h
      · cases h
      · rename_i fed hfeed
        have hstep := hwords.feed data
        rw [← (feed_eq_ok.mp hfeed).1] at hstep
        simpa [fedBytes] using ih hstep h
    | nextFrame =>
      simp only [calls] at h
      split at h
      · cases h
      · rename_i frame taken hnext
        obtain ⟨⟨later, last'⟩, hlater, hout⟩ := bind_eq_ok.mp h
        cases hout
        have hframe := next_of_nextFrame hnext
        cases frame with
        | none => simpa [fedBytes] using ih (hwords.next_none hframe) hlater
        | some frame => simpa [fedBytes] using ih (hwords.next_some hframe) hlater

/-- The frames a codec returns lie in the stream it was fed, in order and apart; every frame
of the stream is among them once all its bytes can have arrived, unless an earlier one of
them overlaps it. -/
theorem frames_resynchronize {capacity : Nat} {steps : List Call} {out : List (List UInt8)}
    {last : FrameCodec} (h : (withCapacity capacity).calls steps = .ok (out, last)) :
    ∃ placed : List (Nat × List UInt8),
      placed.map Prod.snd = out ++ last.drain.1 ∧
      (∀ p ∈ placed, WellFramed p.2 ∧ p.2 <+: (fedBytes steps).drop p.1) ∧
      placed.Pairwise (fun p q => p.1 + p.2.length ≤ q.1) ∧
      ∀ i frame, WellFramed frame → frame <+: (fedBytes steps).drop i →
        i + maxFrameLen ≤ (fedBytes steps).length →
        (i, frame) ∈ placed ∨ ∃ p ∈ placed, p.1 < i ∧ i < p.1 + p.2.length := by
  have hemitted := (emitted_calls (Delimiter.Emitted.nil (D := frames)) h).scan
  simp only [List.nil_append] at hemitted
  have hscan := hemitted.scan_eq (Delimiter.verdict_scan _)
  have hplaced := Delimiter.resynchronizes (D := frames) (fedBytes steps)
  refine ⟨frames.placements (fedBytes steps), ?_, ?_, hplaced.ordered, ?_⟩
  · rw [Delimiter.words_placements, hscan, (drain_eq last).1]
  · intro p hp
    exact ⟨wellFramed_iff.mpr (hplaced.word p hp), hplaced.substring p hp⟩
  · intro i frame hframe hstart hroom
    exact hplaced.lossless i frame (wellFramed_iff.mp hframe) hstart hroom

theorem frames_resynchronize_request :
    ∃ placed : List (Nat × List UInt8),
      placed.map Prod.snd = [[68, 82, 1, 3, 7, 0, 0, 0, 1, 0, 0, 117, 27, 59, 44]] ∧
      ∀ p ∈ placed, WellFramed p.2 :=
  have h := @frames_resynchronize 32
    [.feed [1, 68, 82, 1, 3, 7], .nextFrame, .feed [0, 0, 0, 1, 0, 0, 117, 27, 59, 44, 68],
      .nextFrame]
    [[68, 82, 1, 3, 7, 0, 0, 0, 1, 0, 0, 117, 27, 59, 44]] ⟨[68], 32, by decide⟩
    (by decide +kernel)
  have hdrained : drain ⟨[68], 32, by decide⟩ = ([], ⟨[68], 32, by decide⟩) := by decide +kernel
  let ⟨placed, hwords, hframes, _⟩ := h
  ⟨placed, by rw [hwords, hdrained]; rfl, fun p hp => (hframes p hp).1⟩

end FrameCodec
end Dryer.TransportAdapter
