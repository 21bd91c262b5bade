import Dryer.ControlClient.CommandClient
import Mathlib.Data.List.Induction

/-!
# Runs of the command client

A client sends one command after the other through a sink that may refuse any frame. The frames
that reach the sink are those of the encoded commands, in order, under consecutive sequences.
-/
namespace Dryer.ControlClient
open Library BufferCodec ControlProtocol

variable {σ ε : Type}

/-- The sink, with the frames that were handed to it. -/
def FrameSink.recorded (sink : FrameSink σ ε) : FrameSink (σ × List (List UInt8)) ε where
  sendFrame frame := fun (state, frames) =>
    let (result, next) := sink.sendFrame frame state
    (result, (next, frames ++ [frame]))

/-- The commands that were sent, with their results, and the client after them. -/
structure SendRun (σ ε : Type) where
  history : List (CommandEnvelope × Except (SendError ε) SendReceipt)
  client : CommandClient (σ × List (List UInt8))

namespace SendRun

def start (state : σ) (nextSequence : UInt32) : SendRun σ ε where
  history := []
  client := .withInitialSequence (state, []) nextSequence

def send (sink : FrameSink σ ε) (run : SendRun σ ε) (envelope : CommandEnvelope) : SendRun σ ε :=
  let (result, client) :=
    run.client.sendInner sink.recorded envelope.executeAt envelope.command
  { history := run.history ++ [(envelope, result)], client }

/-- A run of sends, immediate and scheduled. -/
def sendAll (sink : FrameSink σ ε) (state : σ) (initial : UInt32)
    (envelopes : List CommandEnvelope) : SendRun σ ε :=
  envelopes.foldl (send sink) (start state initial)

/-- The command of an entry, unless its encoding failed. -/
def encoded? : CommandEnvelope × Except (SendError ε) SendReceipt → Option CommandEnvelope
  | (_, .error (.encode _)) => none
  | (envelope, _) => some envelope

/-- The commands that were encoded, whether the sink took them or not. -/
def encoded (run : SendRun σ ε) : List CommandEnvelope := run.history.filterMap encoded?

/-- The commands of a run that were encoded have consecutive sequences, and each of them handed
the sink its one frame; the others have a string that is too long. -/
structure Sequenced (initial : UInt32) (envelopes : List CommandEnvelope) (run : SendRun σ ε) :
    Prop where
  sent : run.history.map Prod.fst = envelopes
  frames : run.client.sink.2.map decodeCommand = run.encoded.mapIdx fun k envelope =>
    .ok { sequence := UInt32.ofNat ((initial.toNat + k) % 2 ^ 32), envelope }
  next : run.client.nextSequence =
    UInt32.ofNat ((initial.toNat + run.encoded.length) % 2 ^ 32)
  unencoded : ∀ entry ∈ run.history, encoded? entry = none →
    ∃ value ∈ entry.1.command.string?, maxStringLen < (asBytes value).length

variable {sink : FrameSink σ ε} {initial : UInt32} {envelopes : List CommandEnvelope}
  {run : SendRun σ ε}

theorem exists_long_string {command : Command} (h : ¬ command.StringsFit) :
    ∃ value ∈ command.string?, maxStringLen < (asBytes value).length := by
  simpa only [Command.StringsFit, not_forall, not_le, exists_prop] using h

theorem ofNat_succ (n : ℕ) :
    UInt32.ofNat (n % 2 ^ 32) + 1 = UInt32.ofNat ((n + 1) % 2 ^ 32) := by
  rw [← UInt32.toNat_inj, UInt32.toNat_add]
  simp only [UInt32.toNat_ofNat', UInt32.toNat_one]
  omega

theorem sequenced_start (state : σ) :
    Sequenced initial [] (start state initial : SendRun σ ε) where
  sent := rfl
  frames := rfl
  next := by
    have hlt := initial.toNat_lt
    rw [← UInt32.toNat_inj]
    simp [start, CommandClient.withInitialSequence, encoded]
  unencoded := by
    intro entry hentry
    cases hentry

/-- A command that was encoded, with what it added to the run. -/
theorem Sequenced.concat_encoded (h : run.Sequenced initial envelopes) {envelope : CommandEnvelope}
    {result : Except (SendError ε) SendReceipt} {client : CommandClient (σ × List (List UInt8))}
    (hencoded : encoded? (envelope, result) = some envelope) (hfits : envelope.command.StringsFit)
    (hframes : client.sink.2 = run.client.sink.2 ++ [(run.client.nextFrame envelope).bytes])
    (hnext : client.nextSequence = run.client.nextSequence + 1) :
    Sequenced initial (envelopes ++ [envelope])
      { history := run.history ++ [(envelope, result)], client } := by
  have hconcat : encoded { history := run.history ++ [(envelope, result)], client } =
      run.encoded ++ [envelope] := by
    simp [encoded, hencoded]
  have hdecodes : decodeCommand (run.client.nextFrame envelope).bytes =
      .ok (run.client.nextFrame envelope) :=
    (commandFrame_codes.decode_iff _ _).mpr ⟨hfits, rfl⟩
  refine ⟨by simp [h.sent], ?_, ?_, ?_⟩
  · rw [hconcat, List.mapIdx_concat, hframes, List.map_append, h.frames, List.map_singleton,
      hdecodes, CommandClient.nextFrame, h.next]
  · rw [hconcat, hnext, h.next, ofNat_succ, List.length_append]
    rfl
  · intro entry hentry hnone
    obtain hold | hnew := List.mem_append.mp hentry
    · exact h.unencoded entry hold hnone
    · obtain rfl := List.mem_singleton.mp hnew
      rw [hencoded] at hnone
      cases hnone

theorem Sequenced.send (h : run.Sequenced initial envelopes) (envelope : CommandEnvelope) :
    (run.send sink envelope).Sequenced initial (envelopes ++ [envelope]) := by
  have hsends := run.client.sends_sendInner sink.recorded envelope
  unfold SendRun.send
  dsimp only
  generalize (run.client.sendInner sink.recorded envelope.executeAt envelope.command).1 = result
    at hsends ⊢
  generalize (run.client.sendInner sink.recorded envelope.executeAt envelope.command).2 = client
    at hsends ⊢
  have hrecorded {outcome : Except ε Unit} (hsend : sink.recorded.sendFrame
      (run.client.nextFrame envelope).bytes run.client.sink = (outcome, client.sink)) :
      client.sink.2 = run.client.sink.2 ++ [(run.client.nextFrame envelope).bytes] := by
    rw [← (Prod.mk.inj hsend).2]
  cases hsends with
  | unencodable e _ hfits hsink hnext =>
    have hsame : encoded { history := run.history ++ [(envelope, .error (.encode e))], client } =
        run.encoded := by
      simp [encoded, encoded?]
    refine ⟨by simp [h.sent], ?_, ?_, ?_⟩
    · rw [hsame, hsink, h.frames]
    · rw [hsame, hnext, h.next]
    · intro entry hentry hnone
      obtain hold | hnew := List.mem_append.mp hentry
      · exact h.unencoded entry hold hnone
      · obtain rfl := List.mem_singleton.mp hnew
        exact exists_long_string hfits
  | refused e _ hfits hsend hnext => exact h.concat_encoded rfl hfits (hrecorded hsend) hnext
  | sent receipt _ hfits hsend hnext => exact h.concat_encoded rfl hfits (hrecorded hsend) hnext

/-- Through a sink that fails in any way, every run of sends is in sequence. -/
theorem sequenced_sendAll (sink : FrameSink σ ε) (state : σ) (initial : UInt32)
    (envelopes : List CommandEnvelope) :
    (sendAll sink state initial envelopes).Sequenced initial envelopes := by
  induction envelopes using List.reverseRecOn with
  | nil => exact sequenced_start state
  | append_singleton envelopes envelope ih =>
    rw [sendAll, List.foldl_append, List.foldl_cons, List.foldl_nil]
    exact ih.send envelope

end SendRun

end Dryer.ControlClient
