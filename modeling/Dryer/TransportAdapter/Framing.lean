import Dryer.Library.Delimiter
import Dryer.TransportAdapter.FrameCodec

/-!
# The codec as a delimiter

`frameVerdict` is one decision of `nextFrame` about the front of its buffer. It is never
revised once it is taken, which makes the codec an instance of the delimiters of the library.
-/
namespace Dryer.TransportAdapter
open Library ControlProtocol

/-- The header at the front of a buffer announces a frame the codec takes. -/
def HeaderOk (buffer : List UInt8) : Prop :=
  byteAt buffer 2 = protocolVersion ∧ (1 ≤ byteAt buffer 3 ∧ byteAt buffer 3 ≤ 4) ∧
    LittleEndian.decode [byteAt buffer 8, byteAt buffer 9] ≤ maxPayloadLen

instance (buffer : List UInt8) : Decidable (HeaderOk buffer) :=
  inferInstanceAs (Decidable (_ ∧ _ ∧ _))

/-- Where the payload that the header announces ends. -/
def payloadEnd (buffer : List UInt8) : Nat :=
  headerLen + LittleEndian.decode [byteAt buffer 8, byteAt buffer 9]

/-- The checksum behind the payload is the checksum of what it covers. -/
def ChecksumOk (buffer : List UInt8) : Prop :=
  UInt32.ofNat (LittleEndian.decode
    [byteAt buffer (payloadEnd buffer), byteAt buffer (payloadEnd buffer + 1),
      byteAt buffer (payloadEnd buffer + 2), byteAt buffer (payloadEnd buffer + 3)]) =
    crc32c ((buffer.take (payloadEnd buffer)).drop 2)

instance (buffer : List UInt8) : Decidable (ChecksumOk buffer) :=
  inferInstanceAs (Decidable (_ = _))

/-- One whole frame with the right checksum. -/
structure WellFramed (frame : List UInt8) : Prop where
  magic : frame.take 2 = magic
  header : HeaderOk frame
  length : frame.length = payloadEnd frame + 4
  checksum : ChecksumOk frame

def frameVerdict (buffer : List UInt8) : Verdict :=
  if buffer = [] ∨ buffer = [0x44] then .wait
  else if buffer.take 2 ≠ magic then .skip
  else if buffer.length < headerLen then .wait
  else if ¬ HeaderOk buffer then .skip
  else if buffer.length < payloadEnd buffer + 4 then .wait
  else if ¬ ChecksumOk buffer then .skip
  else .accept (payloadEnd buffer + 4)

/-! ## More bytes change nothing that was looked at -/

theorem payloadEnd_append {xs : List UInt8} (ys : List UInt8) (h : headerLen ≤ xs.length) :
    payloadEnd (xs ++ ys) = payloadEnd xs := by
  unfold headerLen at h
  rw [payloadEnd, payloadEnd, byteAt_append ys (by omega), byteAt_append ys (by omega)]

theorem headerOk_append {xs : List UInt8} (ys : List UInt8) (h : headerLen ≤ xs.length) :
    HeaderOk (xs ++ ys) ↔ HeaderOk xs := by
  unfold headerLen at h
  rw [HeaderOk, HeaderOk, byteAt_append ys (by omega), byteAt_append ys (by omega),
    byteAt_append ys (by omega), byteAt_append ys (by omega)]

theorem headerLen_le_payloadEnd (buffer : List UInt8) : headerLen ≤ payloadEnd buffer :=
  Nat.le_add_right _ _

theorem checksumOk_append {xs : List UInt8} (ys : List UInt8)
    (h : payloadEnd xs + 4 ≤ xs.length) : ChecksumOk (xs ++ ys) ↔ ChecksumOk xs := by
  have hheader := headerLen_le_payloadEnd xs
  rw [ChecksumOk, ChecksumOk, payloadEnd_append ys (by omega), byteAt_append ys (by omega),
    byteAt_append ys (by omega), byteAt_append ys (by omega), byteAt_append ys (by omega),
    List.take_append_of_le_length (by omega)]

theorem take_two_append {xs : List UInt8} (ys : List UInt8) (h : ¬ (xs = [] ∨ xs = [0x44])) :
    (xs ++ ys).take 2 = magic ↔ xs.take 2 = magic := by
  match xs, h with
  | [], h => exact absurd (Or.inl rfl) h
  | [x], h =>
    have hx : x ≠ 0x44 := fun hx => h (Or.inr (by rw [hx]))
    cases ys <;> simp [magic, hx]
  | _ :: _ :: _, _ => simp

theorem frameVerdict_append {xs : List UInt8} (ys : List UInt8) (h : frameVerdict xs ≠ .wait) :
    frameVerdict (xs ++ ys) = frameVerdict xs := by
  have hfront : ¬ (xs = [] ∨ xs = [0x44]) := by
    intro hwait
    exact h (if_pos hwait)
  have hfront' : ¬ (xs ++ ys = [] ∨ xs ++ ys = [0x44]) := by
    intro hwait
    rcases hwait with hnil | hone
    · exact hfront (Or.inl (List.append_eq_nil_iff.mp hnil).1)
    · rcases List.append_eq_singleton_iff.mp hone with ⟨hnil, -⟩ | ⟨hone, -⟩
      · exact hfront (Or.inl hnil)
      · exact hfront (Or.inr hone)
  unfold frameVerdict at h ⊢
  rw [if_neg hfront] at h ⊢
  rw [if_neg hfront']
  simp only [ne_eq, take_two_append ys hfront]
  by_cases hmagic : xs.take 2 = magic
  · simp only [hmagic, ne_eq, not_true_eq_false, if_false] at h ⊢
    by_cases hheader : xs.length < headerLen
    · exact absurd (if_pos hheader) h
    have hlong : ¬ (xs ++ ys).length < headerLen := by
      rw [List.length_append]
      omega
    rw [if_neg hheader] at h ⊢
    have hheader' : headerLen ≤ xs.length := Nat.not_lt.mp hheader
    rw [if_neg hlong]
    simp only [headerOk_append ys hheader', payloadEnd_append ys hheader']
    by_cases hok : HeaderOk xs
    · simp only [hok, not_true_eq_false, if_false] at h ⊢
      by_cases hwhole : xs.length < payloadEnd xs + 4
      · exact absurd (if_pos hwhole) h
      have hwhole' : ¬ (xs ++ ys).length < payloadEnd xs + 4 := by
        rw [List.length_append]
        omega
      rw [if_neg hwhole, if_neg hwhole']
      simp only [checksumOk_append ys (Nat.not_lt.mp hwhole)]
    · simp only [hok, not_false_eq_true, if_true]
  · simp only [hmagic, not_false_eq_true, if_true]

theorem frameVerdict_eq_accept {xs : List UInt8} {n : Nat} :
    frameVerdict xs = .accept n ↔ xs.take 2 = magic ∧ headerLen ≤ xs.length ∧ HeaderOk xs ∧
      payloadEnd xs + 4 ≤ xs.length ∧ ChecksumOk xs ∧ n = payloadEnd xs + 4 := by
  constructor
  · intro h
    unfold frameVerdict at h
    repeat' split at h
    all_goals simp_all
  · intro ⟨hmagic, hheader, hok, hwhole, hchecksum, hn⟩
    have hfront : ¬ (xs = [] ∨ xs = [0x44]) := by
      unfold headerLen at hheader
      intro hwait
      rcases hwait with rfl | rfl <;> simp at hheader
    rw [frameVerdict, if_neg hfront, if_neg (not_not.mpr hmagic), if_neg (by omega),
      if_neg (not_not.mpr hok), if_neg (by omega), if_neg (not_not.mpr hchecksum), hn]

theorem length_lt_of_wait {xs : List UInt8} (h : frameVerdict xs = .wait) :
    xs.length < maxFrameLen := by
  unfold frameVerdict at h
  split at h
  · rename_i hfront
    rcases hfront with rfl | rfl <;> decide
  split at h
  · cases h
  split at h
  · rename_i hheader
    exact Nat.lt_of_lt_of_le hheader (by decide)
  split at h
  · cases h
  split at h
  · rename_i hok hwhole
    have hpayload := (not_not.mp hok).2.2
    unfold payloadEnd at hwhole
    unfold maxFrameLen checksumLen
    omega
  split at h
  · cases h
  · cases h

theorem frameVerdict_of_append {front rest : List UInt8}
    (h : frameVerdict (front ++ rest) = .accept front.length) :
    frameVerdict front = .accept front.length := by
  obtain ⟨hmagic, -, hok, -, hchecksum, hlength⟩ := frameVerdict_eq_accept.mp h
  have hheader : headerLen ≤ front.length := by
    have := headerLen_le_payloadEnd (front ++ rest)
    omega
  rw [payloadEnd_append rest hheader] at hlength
  refine frameVerdict_eq_accept.mpr ⟨?_, hheader, (headerOk_append rest hheader).mp hok,
    Nat.le_of_eq hlength.symm, (checksumOk_append rest (by omega)).mp hchecksum, hlength⟩
  unfold headerLen at hheader
  rwa [List.take_append_of_le_length (by omega)] at hmagic

theorem frameVerdict_take {xs : List UInt8} {n : Nat} (h : frameVerdict xs = .accept n) :
    frameVerdict (xs.take n) = .accept n := by
  obtain ⟨-, -, -, hwhole, -, hn⟩ := frameVerdict_eq_accept.mp h
  have hlength : (xs.take n).length = n := List.length_take_of_le (by omega)
  rw [← List.take_append_drop n xs] at h
  have hfront := frameVerdict_of_append (h.trans (by rw [hlength]))
  rwa [hlength] at hfront

theorem wellFramed_iff {frame : List UInt8} :
    WellFramed frame ↔ frameVerdict frame = .accept frame.length := by
  rw [frameVerdict_eq_accept]
  constructor
  · intro ⟨hmagic, hok, hlength, hchecksum⟩
    have hheader := headerLen_le_payloadEnd frame
    exact ⟨hmagic, by omega, hok, Nat.le_of_eq hlength.symm, hchecksum, hlength⟩
  · intro ⟨hmagic, _, hok, _, hchecksum, hlength⟩
    exact ⟨hmagic, hok, hlength, hchecksum⟩

/-- The delimiter of the protocol's frames. -/
def frames : Delimiter UInt8 where
  verdict := frameVerdict
  wait_nil := rfl
  accept_bounds := by
    intro xs n h
    obtain ⟨-, -, -, hwhole, -, rfl⟩ := frameVerdict_eq_accept.mp h
    exact ⟨by omega, hwhole⟩
  accept_take := frameVerdict_take
  stable := frameVerdict_append
  lookahead := maxFrameLen
  length_of_wait := length_lt_of_wait

/-! ## The codec is this delimiter -/

theorem magicPosition_cons_cons (x y : UInt8) (rest : List UInt8) :
    FrameCodec.magicPosition (x :: y :: rest) =
      if [x, y] = magic then some 0
      else (FrameCodec.magicPosition (y :: rest)).map (· + 1) := by
  simp [FrameCodec.magicPosition, List.findIdx?_cons]

theorem frameVerdict_eq_skip {x y : UInt8} {rest : List UInt8} (h : [x, y] ≠ magic) :
    frameVerdict (x :: y :: rest) = .skip := by
  simp [frameVerdict, h]

/-- Bytes in front of the first magic are skipped. -/
theorem next_of_magicPosition {xs : List UInt8} {position : Nat}
    (h : FrameCodec.magicPosition xs = some position) :
    frames.next xs = frames.next (xs.drop position) ∧ (xs.drop position).take 2 = magic := by
  induction position generalizing xs with
  | zero =>
    rcases xs with _ | ⟨x, _ | ⟨y, rest⟩⟩
    · simp [FrameCodec.magicPosition] at h
    · simp [FrameCodec.magicPosition] at h
    · rw [magicPosition_cons_cons] at h
      by_cases hmagic : [x, y] = magic
      · simpa using hmagic
      · simp [hmagic] at h
  | succ position ih =>
    rcases xs with _ | ⟨x, _ | ⟨y, rest⟩⟩
    · simp [FrameCodec.magicPosition] at h
    · simp [FrameCodec.magicPosition] at h
    · rw [magicPosition_cons_cons] at h
      by_cases hmagic : [x, y] = magic
      · simp [hmagic] at h
      · simp only [hmagic, if_false, Option.map_eq_some_iff, Nat.add_right_cancel_iff] at h
        obtain ⟨p, hp, rfl⟩ := h
        have hskip : frames.verdict (x :: y :: rest) = .skip := frameVerdict_eq_skip hmagic
        rw [Delimiter.next_of_skip hskip]
        exact ih hp

/-- Without a magic, everything is skipped but a last byte that may begin one. -/
theorem next_of_no_magic {xs : List UInt8} (h : FrameCodec.magicPosition xs = none) :
    frames.next xs =
      (none, if xs.getLast? = some 0x44 then xs.drop (xs.length - 1) else []) := by
  induction xs with
  | nil => exact Delimiter.next_of_wait rfl
  | cons x xs ih =>
    match xs, h with
    | [], _ =>
      by_cases hx : x = 0x44
      · subst hx
        exact Delimiter.next_of_wait rfl
      · have hskip : frames.verdict [x] = .skip := by
          simp [frames, frameVerdict, hx, magic]
        rw [Delimiter.next_of_skip hskip, List.drop_one, List.tail_cons,
          Delimiter.next_of_wait rfl]
        simp [hx]
    | y :: rest, h =>
      rw [magicPosition_cons_cons] at h
      by_cases hmagic : [x, y] = magic
      · simp [hmagic] at h
      · simp only [hmagic, if_false, Option.map_eq_none_iff] at h
        have hskip : frames.verdict (x :: y :: rest) = .skip := frameVerdict_eq_skip hmagic
        rw [Delimiter.next_of_skip hskip, List.drop_one, List.tail_cons, ih h]
        simp

theorem nextFrame_of_no_magic {codec : FrameCodec}
    (h : FrameCodec.magicPosition codec.buffer = none) :
    codec.nextFrame = (.ok none, if codec.buffer.getLast? = some 0x44 then
      codec.discard (codec.buffer.length - 1) else codec.clear) := by
  rw [FrameCodec.nextFrame]
  split
  · split <;> rfl
  · simp_all
  · simp_all

theorem nextFrame_of_noise {codec : FrameCodec} {position : Nat}
    (h : FrameCodec.magicPosition codec.buffer = some (position + 1)) :
    codec.nextFrame = (codec.discard (position + 1)).nextFrame := by
  rw [FrameCodec.nextFrame]
  split
  · simp_all
  · rename_i hposition
    rw [h] at hposition
    cases hposition
    rfl
  · simp_all

/-- With a magic at the front, the codec does what the verdict says. The check of the frame
length is never reached with a length that fails it: the header bounds the payload. -/
theorem nextFrame_of_magic {codec : FrameCodec}
    (h : FrameCodec.magicPosition codec.buffer = some 0) :
    codec.nextFrame =
      match frames.verdict codec.buffer with
      | .wait => (.ok none, codec)
      | .skip => (codec.discard 1).nextFrame
      | .accept n => (.ok (some (codec.buffer.take n)), codec.discard n) := by
  have hmagic : codec.buffer.take 2 = magic := by
    simpa using (next_of_magicPosition h).2
  have hfront : ¬ (codec.buffer = [] ∨ codec.buffer = [0x44]) := by
    intro hwait
    rcases hwait with hnil | hone
    · simp [hnil, magic] at hmagic
    · simp [hone, magic] at hmagic
  have hverdict : frames.verdict codec.buffer = frameVerdict codec.buffer := rfl
  rw [FrameCodec.nextFrame, hverdict, frameVerdict, if_neg hfront, if_neg (not_not.mpr hmagic)]
  split
  · simp_all
  · simp_all
  by_cases hheader : codec.buffer.length < headerLen
  · simp only [hheader, if_true]
  simp only [hheader, if_false]
  by_cases hok : HeaderOk codec.buffer
  · have hlen : ¬ headerLen + LittleEndian.decode
        [byteAt codec.buffer 8, byteAt codec.buffer 9] + 4 > maxFrameLen := by
      have := hok.2.2
      unfold maxFrameLen checksumLen
      omega
    have hok' := hok
    unfold HeaderOk at hok'
    rw [if_neg (not_not.mpr hok), if_neg (not_not.mpr hok'), if_neg hlen]
    by_cases hwhole : codec.buffer.length < payloadEnd codec.buffer + 4
    · have hwhole' := hwhole
      unfold payloadEnd at hwhole'
      rw [if_pos hwhole, if_pos hwhole']
    have hwhole' := hwhole
    unfold payloadEnd at hwhole'
    rw [if_neg hwhole, if_neg hwhole']
    by_cases hchecksum : ChecksumOk codec.buffer
    · have hchecksum' := hchecksum
      unfold ChecksumOk payloadEnd at hchecksum'
      rw [if_neg (not_not.mpr hchecksum), if_neg (not_not.mpr hchecksum')]
      rfl
    · have hchecksum' := hchecksum
      unfold ChecksumOk payloadEnd at hchecksum'
      rw [if_pos hchecksum, if_pos hchecksum']
  · have hok' := hok
    unfold HeaderOk at hok'
    rw [if_pos hok, if_pos hok']

/-- `nextFrame` takes the next word of its buffer, and never fails. -/
theorem nextFrame_eq (codec : FrameCodec) :
    codec.nextFrame.1 = .ok (frames.next codec.buffer).1 ∧
      codec.nextFrame.2.buffer = (frames.next codec.buffer).2 ∧
      codec.nextFrame.2.maxCapacity = codec.maxCapacity := by
  induction hn : codec.buffer.length using Nat.strongRecOn generalizing codec with
  | _ n ih =>
    have hshorter (count : Nat) (hcount : 0 < count) (hne : codec.buffer ≠ []) :
        (codec.discard count).buffer.length < n := by
      have := List.length_pos_iff.mpr hne
      simp only [FrameCodec.discard, List.length_drop]
      omega
    match hposition : FrameCodec.magicPosition codec.buffer with
    | none =>
      rw [nextFrame_of_no_magic hposition, next_of_no_magic hposition]
      refine ⟨rfl, ?_, ?_⟩
      · by_cases hlast : codec.buffer.getLast? = some 0x44
        · rw [if_pos hlast, if_pos hlast, FrameCodec.discard]
        · rw [if_neg hlast, if_neg hlast, FrameCodec.clear]
      · split <;> rfl
    | some (position + 1) =>
      have hne := FrameCodec.ne_nil_of_magicPosition hposition
      rw [nextFrame_of_noise hposition, (next_of_magicPosition hposition).1]
      exact ih _ (hshorter _ (Nat.succ_pos _) hne) _ rfl
    | some 0 =>
      have hne := FrameCodec.ne_nil_of_magicPosition hposition
      rw [nextFrame_of_magic hposition]
      match hverdict : frames.verdict codec.buffer with
      | .wait => exact Delimiter.next_of_wait hverdict ▸ ⟨rfl, rfl, rfl⟩
      | .skip =>
        rw [Delimiter.next_of_skip hverdict]
        exact ih _ (hshorter 1 Nat.one_pos hne) _ rfl
      | .accept n => exact Delimiter.next_of_accept hverdict ▸ ⟨rfl, rfl, rfl⟩

end Dryer.TransportAdapter
