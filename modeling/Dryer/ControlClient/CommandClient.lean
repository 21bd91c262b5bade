import Dryer.ControlClient.ClockSession

/-!
# The command client

A synchronous command sender with one protocol buffer. Encoding commits a sequence; a delivery
may be ambiguous after a transport error, so a retry uses a new one.
-/
namespace Dryer.ControlClient
open Library ControlProtocol

structure SendReceipt where
  sequence : UInt32
  frameLen : ℕ
  deriving DecidableEq

inductive SendError (ε : Type) where
  | encode (error : EncodeError)
  | transport (error : ε)
  deriving DecidableEq

structure CommandClient (σ : Type) where
  sink : σ
  nextSequence : UInt32
  frame : List UInt8
  frameLen : frame.length = maxFrameLen

namespace CommandClient

variable {σ ε : Type}

def withInitialSequence (sink : σ) (nextSequence : UInt32) : CommandClient σ where
  sink
  nextSequence
  frame := List.replicate maxFrameLen 0
  frameLen := List.length_replicate

def new (sink : σ) : CommandClient σ := withInitialSequence sink 0

/-- The client after its buffer was written for `frame`. -/
def withFrame (client : CommandClient σ) (frame : CommandFrame) : CommandClient σ :=
  { client with
    frame := (encodeCommand frame client.frame).2
    frameLen := (commandFrame_codes.length_output frame client.frame).trans client.frameLen }

def sendInner (client : CommandClient σ) (sink : FrameSink σ ε) (executeAt : Option Tick)
    (command : Command) : Except (SendError ε) SendReceipt × CommandClient σ :=
  let sequence := client.nextSequence
  let frame : CommandFrame := { sequence, envelope := { executeAt, command } }
  let written := client.withFrame frame
  match (encodeCommand frame client.frame).1 with
  | .error e => (.error (.encode e), written)
  | .ok frameLen =>
    let (result, sinkState) := sink.sendFrame (written.frame.take frameLen) client.sink
    let next := { written with nextSequence := sequence + 1, sink := sinkState }
    match result with
    | .error e => (.error (.transport e), next)
    | .ok () => (.ok { sequence, frameLen }, next)

/-- Send an immediate command. -/
def send (client : CommandClient σ) (sink : FrameSink σ ε) (command : Command) :
    Except (SendError ε) SendReceipt × CommandClient σ :=
  client.sendInner sink none command

/-- Send a command with a controller timestamp. -/
def sendScheduled (client : CommandClient σ) (sink : FrameSink σ ε) (executeAt : Tick)
    (command : Command) : Except (SendError ε) SendReceipt × CommandClient σ :=
  client.sendInner sink (some executeAt) command

/-- The next command frame of the client. -/
def nextFrame (client : CommandClient σ) (envelope : CommandEnvelope) : CommandFrame where
  sequence := client.nextSequence
  envelope

/-- What sending a command does. A command that cannot be encoded does not reach the sink. -/
inductive Sends (client : CommandClient σ) (sink : FrameSink σ ε) (envelope : CommandEnvelope) :
    Except (SendError ε) SendReceipt → CommandClient σ → Prop
  | unencodable (e : EncodeError) (next : CommandClient σ) : ¬ envelope.command.StringsFit →
      next.sink = client.sink → next.nextSequence = client.nextSequence →
      Sends client sink envelope (.error (.encode e)) next
  | refused (e : ε) (next : CommandClient σ) : envelope.command.StringsFit →
      sink.sendFrame (client.nextFrame envelope).bytes client.sink = (.error e, next.sink) →
      next.nextSequence = client.nextSequence + 1 →
      Sends client sink envelope (.error (.transport e)) next
  | sent (receipt : SendReceipt) (next : CommandClient σ) : envelope.command.StringsFit →
      sink.sendFrame (client.nextFrame envelope).bytes client.sink = (.ok (), next.sink) →
      next.nextSequence = client.nextSequence + 1 →
      Sends client sink envelope (.ok receipt) next

/-- A command that can be encoded is handed to the sink. -/
theorem sendInner_of_fits (client : CommandClient σ) (sink : FrameSink σ ε)
    {envelope : CommandEnvelope} (hfits : envelope.command.StringsFit) {result : Except ε Unit}
    {sinkState : σ}
    (hsend : sink.sendFrame (client.nextFrame envelope).bytes client.sink = (result, sinkState)) :
    client.sendInner sink envelope.executeAt envelope.command =
      ((result.mapError SendError.transport).map fun _ =>
          { sequence := client.nextSequence
            frameLen := (client.nextFrame envelope).bytes.length },
        { client.withFrame (client.nextFrame envelope) with
          nextSequence := client.nextSequence + 1
          sink := sinkState }) := by
  have hroom : (client.nextFrame envelope).bytes.length ≤ client.frame.length :=
    client.frameLen ▸ CommandFrame.length_bytes_le hfits
  have hwrites := commandFrame_codes.writes (client.nextFrame envelope) client.frame hfits hroom
  have hframe : (client.withFrame (client.nextFrame envelope)).frame.take
      (client.nextFrame envelope).bytes.length = (client.nextFrame envelope).bytes := by
    simp only [withFrame, hwrites, List.take_left]
  rw [nextFrame] at hwrites hframe hsend
  simp only [sendInner, hwrites, hframe, hsend]
  cases result <;> rfl

theorem exists_encode_error (client : CommandClient σ) {envelope : CommandEnvelope}
    (hfits : ¬ envelope.command.StringsFit) :
    ∃ e, (encodeCommand (client.nextFrame envelope) client.frame).1 = .error e := by
  obtain ⟨e, hrefuses⟩ := commandFrame_codes.refuses (client.nextFrame envelope) client.frame
    fun hok => hfits hok.1
  exact ⟨e, congrArg Prod.fst hrefuses⟩

theorem sendInner_of_encode_error (client : CommandClient σ) (sink : FrameSink σ ε)
    {envelope : CommandEnvelope} {e : EncodeError}
    (h : (encodeCommand (client.nextFrame envelope) client.frame).1 = .error e) :
    client.sendInner sink envelope.executeAt envelope.command =
      (.error (.encode e), client.withFrame (client.nextFrame envelope)) := by
  rw [nextFrame] at h
  simp only [sendInner, h]
  rfl

theorem sends_sendInner (client : CommandClient σ) (sink : FrameSink σ ε)
    (envelope : CommandEnvelope) :
    Sends client sink envelope
      (client.sendInner sink envelope.executeAt envelope.command).1
      (client.sendInner sink envelope.executeAt envelope.command).2 := by
  by_cases hfits : envelope.command.StringsFit
  · obtain ⟨result, sinkState, hsend⟩ : ∃ result sinkState,
        sink.sendFrame (client.nextFrame envelope).bytes client.sink = (result, sinkState) :=
      ⟨_, _, rfl⟩
    rw [client.sendInner_of_fits sink hfits hsend]
    cases result with
    | error e => exact .refused e _ hfits hsend rfl
    | ok => exact .sent _ _ hfits hsend rfl
  · obtain ⟨e, hencode⟩ := client.exists_encode_error hfits
    rw [client.sendInner_of_encode_error sink hencode]
    exact .unencodable e _ hfits rfl rfl

end CommandClient
end Dryer.ControlClient
