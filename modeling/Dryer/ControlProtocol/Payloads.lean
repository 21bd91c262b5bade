import Dryer.ControlProtocol.Layout

/-!
# Payloads

The bytes of each payload. The payload writers write them, the length computed before
writing is theirs, and the payload readers read exactly them: a payload has one spelling.
-/
namespace Dryer.ControlProtocol
open Library

/-- A string on the wire: its length byte and its UTF-8 bytes. -/
def stringBytes (value : String) : List UInt8 :=
  UInt8.ofNat (asBytes value).length :: asBytes value

def commandBytes : Command → List UInt8
  | .heartbeat => [tagHeartbeat]
  | .setHeaterTarget heater targetMilliC =>
      tagSetHeaterTarget ::
        (stringBytes heater ++ LittleEndian.encode 8 targetMilliC.toUInt64.toNat)
  | .home axis rateUmS =>
      tagHome :: (stringBytes axis ++ LittleEndian.encode 8 rateUmS.toNat)
  | .move axis distanceUm rateUmS =>
      tagMove :: (stringBytes axis ++ (LittleEndian.encode 8 distanceUm.toUInt64.toNat ++
        LittleEndian.encode 8 rateUmS.toNat))

def envelopeBytes (envelope : CommandEnvelope) : List UInt8 :=
  match envelope.executeAt with
  | some executeAt =>
      flagExecuteAt :: (LittleEndian.encode 8 executeAt.toNat ++ commandBytes envelope.command)
  | none => 0 :: commandBytes envelope.command

def queueStatusBytes (status : QueueStatus) : List UInt8 :=
  0 :: (LittleEndian.encode 2 status.capacity.toNat ++
    (LittleEndian.encode 2 status.fill.toNat ++
      (LittleEndian.encode 8 status.earliestAccepted.toNat ++
        (LittleEndian.encode 8 status.latestAccepted.toNat ++
          [if status.underrun then queueStatusFlagUnderrun else 0]))))

def clockRequestBytes : List UInt8 := [0]

def clockResponseBytes (response : ClockResponse) : List UInt8 :=
  0 :: (LittleEndian.encode 8 response.controllerReceive.toNat ++
    LittleEndian.encode 8 response.controllerSend.toNat)

/-- The string field of a command, if it has one. -/
def Command.string? : Command → Option String
  | .heartbeat => none
  | .setHeaterTarget heater _ => some heater
  | .home axis _ => some axis
  | .move axis _ _ => some axis

/-- Every string field has at most `maxStringLen` bytes. -/
def Command.StringsFit (command : Command) : Prop :=
  ∀ value ∈ command.string?, (asBytes value).length ≤ maxStringLen

instance (command : Command) : Decidable command.StringsFit := by
  unfold Command.StringsFit
  infer_instance

@[simp] theorem length_stringBytes (value : String) :
    (stringBytes value).length = 1 + (asBytes value).length := by
  simp [stringBytes, Nat.add_comm]

@[simp] theorem length_queueStatusBytes (status : QueueStatus) :
    (queueStatusBytes status).length = queueStatusPayloadLen := by
  simp [queueStatusBytes, queueStatusPayloadLen]

@[simp] theorem length_clockResponseBytes (response : ClockResponse) :
    (clockResponseBytes response).length = clockResponsePayloadLen := by
  simp [clockResponseBytes, clockResponsePayloadLen]

/-- No payload comes near the bound on payloads once its strings fit. -/
theorem length_envelopeBytes_le {envelope : CommandEnvelope}
    (hfits : envelope.command.StringsFit) :
    (envelopeBytes envelope).length ≤ maxPayloadLen := by
  have hcommand : (commandBytes envelope.command).length ≤ 81 := by
    cases hc : envelope.command <;>
      simp_all [Command.StringsFit, Command.string?, commandBytes, maxStringLen] <;> omega
  cases hat : envelope.executeAt <;> simp [envelopeBytes, hat, maxPayloadLen] <;> omega

/-! ## Writing -/

theorem encodedStringLen_of_le {value : String} (h : (asBytes value).length ≤ maxStringLen) :
    encodedStringLen value = .ok (stringBytes value).length := by
  simp [encodedStringLen, reject, Nat.not_lt.mpr h]

theorem encodedStringLen_of_lt {value : String} (h : maxStringLen < (asBytes value).length) :
    encodedStringLen value = .error (.stringTooLong (asBytes value).length maxStringLen) := by
  simp [encodedStringLen, reject, h]

/-- The length computed before writing is the length of what is written. -/
theorem encodedPayloadLen_of_fits {envelope : CommandEnvelope}
    (hfits : envelope.command.StringsFit) :
    encodedPayloadLen envelope = .ok (envelopeBytes envelope).length := by
  obtain ⟨executeAt, command⟩ := envelope
  cases command with
  | heartbeat =>
    cases executeAt <;> simp [encodedPayloadLen, envelopeBytes, commandBytes] <;> rfl
  | setHeaterTarget heater targetMilliC =>
    have hlen := encodedStringLen_of_le (hfits heater rfl)
    cases executeAt <;> simp [encodedPayloadLen, hlen, envelopeBytes, commandBytes] <;> omega
  | home axis rateUmS =>
    have hlen := encodedStringLen_of_le (hfits axis rfl)
    cases executeAt <;> simp [encodedPayloadLen, hlen, envelopeBytes, commandBytes] <;> omega
  | move axis distanceUm rateUmS =>
    have hlen := encodedStringLen_of_le (hfits axis rfl)
    cases executeAt <;> simp [encodedPayloadLen, hlen, envelopeBytes, commandBytes] <;> omega

/-- A string that is too long is reported with its own length. -/
theorem encodedPayloadLen_of_not_fits {envelope : CommandEnvelope}
    (hfits : ¬ envelope.command.StringsFit) :
    ∃ value ∈ envelope.command.string?, encodedPayloadLen envelope =
      .error (.stringTooLong (asBytes value).length maxStringLen) := by
  obtain ⟨executeAt, command⟩ := envelope
  simp only [Command.StringsFit, not_forall, not_le] at hfits
  obtain ⟨value, hvalue, hlong⟩ := hfits
  have hlen := encodedStringLen_of_lt hlong
  refine ⟨value, hvalue, ?_⟩
  cases command <;> cases hvalue <;> simp [encodedPayloadLen, hlen]

theorem writeCommand_writes (command : Command) :
    Writes Writer.written Writer.free (writeCommand command) () (commandBytes command) := by
  cases command with
  | heartbeat => exact Writer.writeU8_writes _
  | setHeaterTarget heater targetMilliC =>
    exact (Writer.writeU8_writes _).bind
      ((Writer.writeString_writes _).bind (Writer.write_writes _))
  | home axis rateUmS =>
    exact (Writer.writeU8_writes _).bind
      ((Writer.writeString_writes _).bind (Writer.write_writes _))
  | move axis distanceUm rateUmS =>
    exact (Writer.writeU8_writes _).bind ((Writer.writeString_writes _).bind
      ((Writer.write_writes _).bind (Writer.write_writes _)))

theorem encodePayload_writes (envelope : CommandEnvelope) :
    Writes Writer.written Writer.free (encodePayload envelope) () (envelopeBytes envelope) := by
  unfold encodePayload envelopeBytes
  have hcommand := writeCommand_writes envelope.command
  cases envelope.executeAt with
  | none => exact (Writer.writeU8_writes _).bind hcommand
  | some executeAt =>
    exact (Writer.writeU8_writes _).bind ((Writer.write_writes _).bind hcommand)

theorem encodeQueueStatus_payload_writes (status : QueueStatus) :
    Writes Writer.written Writer.free
      (do Writer.writeU8 0
          Writer.write (LittleEndian.encode 2 status.capacity.toNat)
          Writer.write (LittleEndian.encode 2 status.fill.toNat)
          Writer.write (LittleEndian.encode 8 status.earliestAccepted.toNat)
          Writer.write (LittleEndian.encode 8 status.latestAccepted.toNat)
          let stateFlags := if status.underrun then queueStatusFlagUnderrun else 0
          Writer.writeU8 stateFlags)
      () (queueStatusBytes status) :=
  (Writer.writeU8_writes _).bind ((Writer.write_writes _).bind ((Writer.write_writes _).bind
    ((Writer.write_writes _).bind ((Writer.write_writes _).bind (Writer.writeU8_writes _)))))

theorem encodeClockResponse_payload_writes (response : ClockResponse) :
    Writes Writer.written Writer.free
      (do Writer.writeU8 0
          Writer.write (LittleEndian.encode 8 response.controllerReceive.toNat)
          Writer.write (LittleEndian.encode 8 response.controllerSend.toNat))
      () (clockResponseBytes response) :=
  (Writer.writeU8_writes _).bind ((Writer.write_writes _).bind (Writer.write_writes _))

/-! ## Reading -/

theorem and_not_one_ne_zero (flags : UInt8) : flags &&& ~~~1 ≠ 0 ↔ ¬ (flags = 0 ∨ flags = 1) := by
  have hall : ∀ n : Fin 256, UInt8.ofFin n &&& ~~~1 ≠ 0 ↔
      ¬ (UInt8.ofFin n = 0 ∨ UInt8.ofFin n = 1) := by decide +kernel
  exact hall flags.toFin

/-- After its tag a command is read from exactly the rest of its bytes. -/
theorem readCommand_reads (tag : UInt8) :
    Reads Reader.unread (readCommand tag)
      (fun command word => command.StringsFit ∧ tag :: word = commandBytes command) := by
  unfold readCommand
  by_cases hheartbeat : tag = tagHeartbeat
  · subst hheartbeat
    apply (Reads.pure _).congr
    intro command word
    cases command <;>
      simp [Command.StringsFit, Command.string?, commandBytes, tagHeartbeat, tagSetHeaterTarget,
        tagHome, tagMove]
  by_cases htarget : tag = tagSetHeaterTarget
  · subst htarget
    refine (Reader.readString_reads.bind fun heater => Reader.readI64_reads.bind fun target =>
      Reads.pure _).congr fun command word => ?_
    cases command <;>
      simp [Command.StringsFit, Command.string?, commandBytes, tagHeartbeat, tagSetHeaterTarget,
        tagHome, tagMove, stringBytes]
  by_cases hhome : tag = tagHome
  · subst hhome
    refine (Reader.readString_reads.bind fun axis => Reader.readU64_reads.bind fun rate =>
      Reads.pure _).congr fun command word => ?_
    cases command <;>
      simp [Command.StringsFit, Command.string?, commandBytes, tagHeartbeat, tagSetHeaterTarget,
        tagHome, tagMove, stringBytes]
  by_cases hmove : tag = tagMove
  · subst hmove
    refine (Reader.readString_reads.bind fun axis => Reader.readI64_reads.bind fun distance =>
      Reader.readU64_reads.bind fun rate => Reads.pure _).congr fun command word => ?_
    cases command <;>
      simp [Command.StringsFit, Command.string?, commandBytes, tagHeartbeat, tagSetHeaterTarget,
        tagHome, tagMove, stringBytes]
  simp only [hheartbeat, htarget, hhome, hmove, if_false]
  apply (Reads.throw _).congr
  intro command word
  cases command <;> simp [commandBytes, hheartbeat, htarget, hhome, hmove]

/-- The reserved flags and the slot of an absent `executeAt` have one spelling each. -/
theorem readEnvelope_reads :
    Reads Reader.unread readEnvelope
      (Grammar.fitting (fun envelope => envelope.command.StringsFit) envelopeBytes) := by
  have hcommand (executeAt : Option Tick) : Reads Reader.unread
      (do let tag ← Reader.readU8
          let command ← readCommand tag
          pure { executeAt, command : CommandEnvelope })
      (fun envelope word => envelope.executeAt = executeAt ∧ envelope.command.StringsFit ∧
        word = commandBytes envelope.command) := by
    refine (Reader.readU8_reads.bind fun tag => (readCommand_reads tag).bind fun command =>
      Reads.pure _).congr fun envelope word => ?_
    simp only [Grammar.exact_bind_iff, Grammar.bind_value_iff, Grammar.map_iff]
    constructor
    · rintro ⟨tag, back, ⟨command, ⟨hfits, hbytes⟩, rfl⟩, rfl⟩
      exact ⟨rfl, hfits, hbytes⟩
    · rintro ⟨rfl, hfits, rfl⟩
      obtain ⟨tag, back, hbytes⟩ : ∃ tag back, commandBytes envelope.command = tag :: back := by
        cases envelope.command <;> exact ⟨_, _, rfl⟩
      exact ⟨tag, back, ⟨envelope.command, ⟨hfits, hbytes.symm⟩, rfl⟩, hbytes⟩
  refine (Reader.readU8_reads.bind (H := fun flags envelope word =>
    envelope.command.StringsFit ∧ flags :: word = envelopeBytes envelope)
    fun flags => ?_).congr fun envelope word => ?_
  · by_cases hnone : flags = 0
    · subst hnone
      apply ((Reads.pure none).bind hcommand).congr
      intro envelope word
      obtain ⟨executeAt, command⟩ := envelope
      cases executeAt <;> simp [envelopeBytes, flagExecuteAt]
    by_cases hsome : flags = flagExecuteAt
    · subst hsome
      apply (Reader.readU64_reads.map.bind hcommand).congr
      intro envelope word
      obtain ⟨executeAt, command⟩ := envelope
      cases executeAt <;> simp [envelopeBytes, flagExecuteAt]
    have hunknown : flags &&& ~~~knownFlags ≠ 0 :=
      (and_not_one_ne_zero flags).mpr fun h => h.elim hnone hsome
    simp only [hunknown, ne_eq, not_false_eq_true, if_true]
    apply (Reads.throw _).congr
    intro envelope word
    obtain ⟨executeAt, command⟩ := envelope
    cases executeAt <;> simp [envelopeBytes, hnone, hsome]
  · simp only [Grammar.exact_bind_iff, Grammar.fitting_iff]
    constructor
    · rintro ⟨flags, back, ⟨hfits, hbytes⟩, rfl⟩
      exact ⟨hfits, hbytes⟩
    · rintro ⟨hfits, rfl⟩
      obtain ⟨flags, back, hbytes⟩ : ∃ flags back, envelopeBytes envelope = flags :: back := by
        unfold envelopeBytes
        cases envelope.executeAt <;> exact ⟨_, _, rfl⟩
      exact ⟨flags, back, ⟨hfits, hbytes.symm⟩, hbytes⟩

/-- A payload is accepted exactly when it is the spelling of what is returned. -/
theorem decodePayload_eq_ok {payload : List UInt8} {envelope : CommandEnvelope} :
    decodePayload payload = .ok envelope ↔
      envelope.command.StringsFit ∧ payload = envelopeBytes envelope := by
  have hwhole := readEnvelope_reads.whole_iff (s := Reader.new payload) (a := envelope)
  rw [Reader.unread_new, Grammar.fitting_iff] at hwhole
  rw [← hwhole, decodePayload]
  simp only [bind_eq_ok, reject_eq_ok, Prod.exists, pure, Except.pure, Except.ok.injEq]
  constructor
  · rintro ⟨_, reader, hrun, -, hnone, rfl⟩
    refine ⟨reader, hrun, List.eq_nil_of_length_eq_zero ?_⟩
    rw [Reader.length_unread]
    exact not_not.mp hnone
  · rintro ⟨reader, hrun, hnil⟩
    refine ⟨envelope, reader, hrun, (), ?_, rfl⟩
    rw [← Reader.length_unread, hnil]
    simp

/-- A reserved flag byte contributes a zero and nothing else. -/
theorem reserved_reads {α : Type} {body : ReaderM α} {G : Grammar UInt8 α}
    (hbody : Reads Reader.unread body G) :
    Reads Reader.unread
      (do let flags ← Reader.readU8
          if flags ≠ 0 then throw (.invalidFlags flags) else body)
      (fun value word => ∃ rest, G value rest ∧ word = 0 :: rest) := by
  refine (Reader.readU8_reads.bind fun flags =>
    Reads.ite (Reads.throw _) hbody).congr fun value word => ?_
  simp only [Grammar.exact_bind_iff, List.singleton_append]
  constructor
  · rintro ⟨flags, rest, h, rfl⟩
    by_cases hzero : flags = 0
    · subst hzero
      exact ⟨rest, h, rfl⟩
    · simp [hzero] at h
  · rintro ⟨rest, h, rfl⟩
    exact ⟨0, rest, h, rfl⟩

theorem underrun_reads {α : Type} (finish : Bool → α) :
    Reads Reader.unread
      (do let stateFlags ← Reader.readU8
          if stateFlags &&& ~~~queueStatusFlagUnderrun ≠ 0 then
            throw (.invalidStateFlags stateFlags)
          else pure (finish (stateFlags &&& queueStatusFlagUnderrun ≠ 0)))
      (Grammar.map finish
        (Grammar.exact fun underrun => [if underrun then queueStatusFlagUnderrun else 0])) := by
  refine (Reader.readU8_reads.bind fun stateFlags =>
    Reads.ite (Reads.throw _) (Reads.pure _)).congr fun value word => ?_
  simp only [Grammar.exact_bind_iff, Grammar.map_iff, Grammar.exact_iff]
  constructor
  · rintro ⟨stateFlags, rest, h, rfl⟩
    split at h
    · exact h.elim
    · rename_i hknown
      obtain ⟨rfl, rfl⟩ := h
      rcases not_not.mp (mt (and_not_one_ne_zero stateFlags).mpr hknown) with rfl | rfl
      · exact ⟨false, rfl, rfl⟩
      · exact ⟨true, rfl, rfl⟩
  · rintro ⟨underrun, rfl, rfl⟩
    cases underrun
    · exact ⟨0, [], ⟨rfl, rfl⟩, rfl⟩
    · exact ⟨queueStatusFlagUnderrun, [], ⟨rfl, rfl⟩, rfl⟩

theorem readQueueStatus_reads :
    Reads Reader.unread readQueueStatus (Grammar.exact queueStatusBytes) := by
  refine (reserved_reads (Reader.readU16_reads.bind fun capacity =>
    Reader.readU16_reads.bind fun fill => Reader.readU64_reads.bind fun earliest =>
    Reader.readU64_reads.bind fun latest => underrun_reads _)).congr fun status word => ?_
  simp only [Grammar.exact_bind_iff, Grammar.map_iff, Grammar.exact_iff]
  constructor
  · rintro ⟨_, ⟨capacity, _, ⟨fill, _, ⟨earliest, _, ⟨latest, _, ⟨underrun, rfl, rfl⟩, rfl⟩, rfl⟩,
      rfl⟩, rfl⟩, rfl⟩
    rfl
  · rintro rfl
    exact ⟨_, ⟨status.capacity, _, ⟨status.fill, _, ⟨status.earliestAccepted, _,
      ⟨status.latestAccepted, _, ⟨status.underrun, rfl, rfl⟩, rfl⟩, rfl⟩, rfl⟩, rfl⟩, rfl⟩

theorem readClockRequest_reads :
    Reads Reader.unread readClockRequest (Grammar.exact fun _ => clockRequestBytes) := by
  apply (reserved_reads (Reads.pure ())).congr
  intro value word
  simp [clockRequestBytes]

theorem readClockResponse_reads :
    Reads Reader.unread readClockResponse (Grammar.exact clockResponseBytes) := by
  refine (reserved_reads (Reader.readU64_reads.bind fun receive =>
    Reader.readU64_reads.bind fun send => Reads.pure _)).congr fun response word => ?_
  simp only [Grammar.exact_bind_iff, Grammar.value_iff, Grammar.exact_iff]
  constructor
  · rintro ⟨_, ⟨receive, _, ⟨send, _, ⟨rfl, rfl⟩, rfl⟩, rfl⟩, rfl⟩
    simp [clockResponseBytes]
  · rintro rfl
    exact ⟨_, ⟨response.controllerReceive, _, ⟨response.controllerSend, [], ⟨rfl, rfl⟩, rfl⟩,
      rfl⟩, by simp [clockResponseBytes]⟩

end Dryer.ControlProtocol
