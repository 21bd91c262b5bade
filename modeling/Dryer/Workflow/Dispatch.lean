import Dryer.ControlClient.CommandClient
import Dryer.Workflow.Conservation

/-!
# Dispatching to a client

A batch is taken from the job queue and counted before any command of it is sent, and the first
send that fails ends the dispatch.
-/
namespace Dryer.Workflow
open Library ControlProtocol ControlClient

variable {σ ε : Type}

def sendEnvelope (sink : FrameSink σ ε) (client : CommandClient σ) (envelope : CommandEnvelope) :
    Except (SendError ε) SendReceipt × CommandClient σ :=
  match envelope.executeAt with
  | some tick => client.sendScheduled sink tick envelope.command
  | none => client.send sink envelope.command

/-- The loop of `dispatch_to_client`. -/
def sendBatch (sink : FrameSink σ ε) (receipts : List SendReceipt) (client : CommandClient σ) :
    List CommandEnvelope → Except (SendError ε) (List SendReceipt) × CommandClient σ
  | [] => (.ok receipts, client)
  | envelope :: rest =>
    match sendEnvelope sink client envelope with
    | (.error e, client) => (.error e, client)
    | (.ok receipt, client) => sendBatch sink (receipts ++ [receipt]) client rest

def WorkflowRunner.dispatchToClient (runner : WorkflowRunner) (sink : FrameSink σ ε)
    (client : CommandClient σ) :
    Except (SendError ε) (List SendReceipt) × WorkflowRunner × CommandClient σ :=
  let (batch, runner) := runner.nextDispatchBatch
  let (result, client) := sendBatch sink [] client batch
  (result, runner, client)

/-! ## What reaches the transport -/

/-- A sink beside the list of the frames that it was handed. -/
def recorded (sink : FrameSink σ ε) : FrameSink (σ × List (List UInt8)) ε where
  sendFrame frame s :=
    let (result, next) := sink.sendFrame frame s.1
    (result, next, s.2 ++ [frame])

/-- A client of the recorded sink. -/
def recordedClient (client : CommandClient σ) : CommandClient (σ × List (List UInt8)) :=
  { client with sink := (client.sink, []) }

/-- The frames of a batch, as long as every command of it is sent. -/
def batchFrames (sequence : UInt32) : List CommandEnvelope → List CommandFrame
  | [] => []
  | envelope :: rest => { sequence, envelope } :: batchFrames (sequence + 1) rest

/-- The sink takes frames one after the other. -/
def Takes (sink : FrameSink σ ε) : List (List UInt8) → σ → Prop
  | [], _ => True
  | frame :: rest, s => (sink.sendFrame frame s).1.isOk ∧ Takes sink rest (sink.sendFrame frame s).2

/-- Everything that was not handed to the transport is in the job queue and not counted. -/
structure NothingLost (runner next : WorkflowRunner) (handed : ℕ) : Prop where
  queue : next.jobQueue = runner.jobQueue.drop handed
  dispatched : next.totalDispatched = runner.totalDispatched + handed

/-- All commands of a batch can be encoded, and the sink takes all but the last. -/
structure HandsAll (sink : FrameSink σ ε) (s : σ) (sequence : UInt32)
    (batch : List CommandEnvelope) : Prop where
  fits : ∀ envelope ∈ batch, envelope.command.StringsFit
  takes : Takes sink ((batchFrames sequence batch).dropLast.map CommandFrame.bytes) s

theorem sendEnvelope_eq (sink : FrameSink σ ε) (client : CommandClient σ)
    (envelope : CommandEnvelope) :
    sendEnvelope sink client envelope =
      client.sendInner sink envelope.executeAt envelope.command := by
  obtain ⟨executeAt, command⟩ := envelope
  cases executeAt <;> rfl

theorem sends_sendEnvelope (sink : FrameSink σ ε) (client : CommandClient σ)
    (envelope : CommandEnvelope) :
    client.Sends sink envelope (sendEnvelope sink client envelope).1
      (sendEnvelope sink client envelope).2 := by
  rw [sendEnvelope_eq]
  exact client.sends_sendInner sink envelope

theorem recorded_eq {sink : FrameSink σ ε} {frame : List UInt8} {s : σ × List (List UInt8)}
    {result : Except ε Unit} {next : σ × List (List UInt8)}
    (h : (recorded sink).sendFrame frame s = (result, next)) :
    sink.sendFrame frame s.1 = (result, next.1) ∧ next.2 = s.2 ++ [frame] := by
  simp only [recorded, Prod.mk.injEq] at h
  obtain ⟨rfl, rfl⟩ := h
  exact ⟨rfl, rfl⟩

theorem handsAll_cons {sink : FrameSink σ ε} {s next : σ} {sequence : UInt32}
    {envelope : CommandEnvelope} (hfits : envelope.command.StringsFit)
    (hsend : sink.sendFrame ({ sequence, envelope } : CommandFrame).bytes s = (.ok (), next))
    (rest : List CommandEnvelope) :
    HandsAll sink next (sequence + 1) rest ↔ HandsAll sink s sequence (envelope :: rest) := by
  cases rest with
  | nil => exact iff_of_true ⟨nofun, trivial⟩ ⟨List.forall_mem_singleton.mpr hfits, trivial⟩
  | cons later rest =>
    have hframes : (batchFrames sequence (envelope :: later :: rest)).dropLast =
        { sequence, envelope } :: (batchFrames (sequence + 1) (later :: rest)).dropLast := rfl
    have htakes (frames : List CommandFrame) :
        Takes sink (({ sequence, envelope } :: frames).map CommandFrame.bytes) s ↔
          Takes sink (frames.map CommandFrame.bytes) next := by
      rw [List.map_cons, Takes, hsend]
      exact and_iff_right rfl
    constructor
    · rintro ⟨hrest, hlater⟩
      refine ⟨List.forall_mem_cons.mpr ⟨hfits, hrest⟩, ?_⟩
      rw [hframes]
      exact (htakes _).mpr hlater
    · rintro ⟨hall, hboth⟩
      rw [hframes] at hboth
      exact ⟨(List.forall_mem_cons.mp hall).2, (htakes _).mp hboth⟩

/-- A batch is handed to the transport completely, exactly when only its last send may fail
there. -/
theorem length_handed (sink : FrameSink σ ε) (receipts : List SendReceipt)
    (client : CommandClient (σ × List (List UInt8))) (batch : List CommandEnvelope) :
    (sendBatch (recorded sink) receipts client batch).2.sink.2.length ≤
        client.sink.2.length + batch.length ∧
      ((sendBatch (recorded sink) receipts client batch).2.sink.2.length =
          client.sink.2.length + batch.length ↔
        HandsAll sink client.sink.1 client.nextSequence batch) := by
  induction batch generalizing receipts client with
  | nil => exact ⟨le_rfl, iff_of_true rfl ⟨nofun, trivial⟩⟩
  | cons envelope rest ih =>
    have hsends := sends_sendEnvelope (recorded sink) client envelope
    rw [sendBatch]
    generalize sendEnvelope (recorded sink) client envelope = outcome at hsends ⊢
    obtain ⟨result, next⟩ := outcome
    dsimp only at hsends
    cases hsends with
    | unencodable e _ hfits hsink =>
      simp only [hsink, List.length_cons]
      refine ⟨Nat.le_add_right _ _, iff_of_false (by omega) fun hall => ?_⟩
      exact hfits (hall.fits envelope (.head _))
    | refused e _ hfits hsend =>
      obtain ⟨hresult, hlog⟩ := recorded_eq hsend
      simp only [hlog, List.length_append, List.length_cons, List.length_nil]
      refine ⟨by omega, ?_⟩
      cases rest with
      | nil => exact iff_of_true rfl ⟨List.forall_mem_singleton.mpr hfits, trivial⟩
      | cons later rest =>
        refine iff_of_false (by simp) fun hall => ?_
        have hok : (sink.sendFrame (client.nextFrame envelope).bytes client.sink.1).1.isOk :=
          hall.takes.1
        rw [hresult] at hok
        cases hok
    | sent receipt _ hfits hsend hsequence =>
      obtain ⟨hresult, hlog⟩ := recorded_eq hsend
      obtain ⟨hle, hiff⟩ := ih (receipts ++ [receipt]) next
      simp only [hlog, List.length_append, List.length_singleton] at hle hiff
      rw [List.length_cons, Nat.add_comm rest.length, ← Nat.add_assoc]
      refine ⟨hle, hiff.trans ?_⟩
      rw [hsequence]
      exact handsAll_cons hfits hresult rest

/-- A batch without an error reaches the transport completely. -/
theorem length_handed_of_ok (sink : FrameSink σ ε) (receipts : List SendReceipt)
    (client : CommandClient (σ × List (List UInt8))) (batch : List CommandEnvelope)
    {all : List SendReceipt} (h : (sendBatch (recorded sink) receipts client batch).1 = .ok all) :
    (sendBatch (recorded sink) receipts client batch).2.sink.2.length =
      client.sink.2.length + batch.length := by
  induction batch generalizing receipts client with
  | nil => rfl
  | cons envelope rest ih =>
    have hsends := sends_sendEnvelope (recorded sink) client envelope
    rw [sendBatch] at h ⊢
    generalize sendEnvelope (recorded sink) client envelope = outcome at hsends h ⊢
    obtain ⟨result, next⟩ := outcome
    dsimp only at hsends
    cases hsends with
    | unencodable | refused => cases h
    | sent receipt _ hfits hsend =>
      obtain ⟨-, hlog⟩ := recorded_eq hsend
      have hrest := ih (receipts ++ [receipt]) next h
      simp only [hlog, List.length_append, List.length_cons, List.length_nil] at hrest ⊢
      omega

/-! ## Recording changes nothing -/

/-- The client without the record of its sink. -/
def plainClient (client : CommandClient (σ × List (List UInt8))) : CommandClient σ :=
  { client with sink := client.sink.1 }

theorem sendEnvelope_recorded (sink : FrameSink σ ε)
    (client : CommandClient (σ × List (List UInt8))) (envelope : CommandEnvelope) :
    (sendEnvelope (recorded sink) client envelope).1 =
        (sendEnvelope sink (plainClient client) envelope).1 ∧
      plainClient (sendEnvelope (recorded sink) client envelope).2 =
        (sendEnvelope sink (plainClient client) envelope).2 := by
  rw [sendEnvelope_eq, sendEnvelope_eq]
  by_cases hfits : envelope.command.StringsFit
  · obtain ⟨result, next, hsend⟩ : ∃ result next,
        sink.sendFrame (client.nextFrame envelope).bytes client.sink.1 = (result, next) :=
      ⟨_, _, rfl⟩
    have hrecorded : (recorded sink).sendFrame (client.nextFrame envelope).bytes client.sink =
        (result, next, client.sink.2 ++ [(client.nextFrame envelope).bytes]) := by
      simp only [recorded, hsend]
    rw [client.sendInner_of_fits _ hfits hrecorded,
      (plainClient client).sendInner_of_fits sink hfits hsend]
    exact ⟨rfl, rfl⟩
  · obtain ⟨e, hencode⟩ := client.exists_encode_error hfits
    rw [client.sendInner_of_encode_error _ hencode,
      (plainClient client).sendInner_of_encode_error sink hencode]
    exact ⟨rfl, rfl⟩

theorem sendBatch_recorded (sink : FrameSink σ ε) (receipts : List SendReceipt)
    (client : CommandClient (σ × List (List UInt8))) (batch : List CommandEnvelope) :
    (sendBatch (recorded sink) receipts client batch).1 =
        (sendBatch sink receipts (plainClient client) batch).1 := by
  induction batch generalizing receipts client with
  | nil => rfl
  | cons envelope rest ih =>
    obtain ⟨hresult, hclient⟩ := sendEnvelope_recorded sink client envelope
    rw [sendBatch, sendBatch]
    generalize sendEnvelope (recorded sink) client envelope = outcome at hresult hclient ⊢
    generalize sendEnvelope sink (plainClient client) envelope = plain at hresult hclient ⊢
    obtain ⟨result, next⟩ := outcome
    obtain ⟨_, _⟩ := plain
    obtain rfl : result = _ := hresult
    obtain rfl := hclient
    cases result with
    | error e => rfl
    | ok receipt => exact ih (receipts ++ [receipt]) next

/-- The number of the frames of a batch that are handed to the transport. -/
def handedCount (sink : FrameSink σ ε) (client : CommandClient σ)
    (batch : List CommandEnvelope) : ℕ :=
  (sendBatch (recorded sink) [] (recordedClient client) batch).2.sink.2.length

/-- Nothing is lost in a dispatch exactly when every command of its batch reaches the
transport. -/
theorem dispatch_loses_nothing_iff (runner : WorkflowRunner) (sink : FrameSink σ ε)
    (client : CommandClient σ) :
    ((∃ e, (runner.dispatchToClient sink client).1 = .error e) →
        NothingLost runner (runner.dispatchToClient sink client).2.1
          (handedCount sink client runner.nextDispatchBatch.1)) ↔
      HandsAll sink client.sink client.nextSequence runner.nextDispatchBatch.1 := by
  have hcount : handedCount sink client runner.nextDispatchBatch.1 =
      runner.nextDispatchBatch.1.length ↔
        HandsAll sink client.sink client.nextSequence runner.nextDispatchBatch.1 := by
    have hhanded := length_handed sink [] (recordedClient client) runner.nextDispatchBatch.1
    simpa [handedCount, recordedClient] using hhanded.2
  have hdispatched : (runner.dispatchToClient sink client).2.1.totalDispatched =
        runner.totalDispatched + runner.nextDispatchBatch.1.length ∧
      (runner.dispatchToClient sink client).2.1.jobQueue =
        runner.jobQueue.drop runner.nextDispatchBatch.1.length := by
    have hdispatches := dispatches_nextDispatchBatch runner
    simp only [WorkflowRunner.dispatchToClient]
    generalize runner.nextDispatchBatch.1 = batch, runner.nextDispatchBatch.2 = next
      at hdispatches ⊢
    cases hdispatches with
    | nothing => exact ⟨rfl, rfl⟩
    | batch count state hsize hroom hpos hlength =>
      rw [WorkflowRunner.length_schedule, List.length_take_of_le hlength]
      exact ⟨rfl, rfl⟩
  rw [← hcount]
  constructor
  · intro hnothing
    cases hresult : (sendBatch sink [] client runner.nextDispatchBatch.1).1 with
    | error e =>
      have hlost := (hnothing ⟨e, hresult⟩).dispatched
      omega
    | ok receipts =>
      have hall := length_handed_of_ok sink [] (recordedClient client)
        runner.nextDispatchBatch.1 ((sendBatch_recorded sink [] _ _).trans hresult)
      simpa [handedCount, recordedClient] using hall
  · intro heq _
    exact ⟨by rw [heq]; exact hdispatched.2, by rw [heq]; exact hdispatched.1⟩

/-- A transport that fails at the first of two commands loses the second. -/
theorem refused_batch_is_lost :
    let runner : WorkflowRunner := { WorkflowRunner.new .default with
      jobQueue := [⟨none, .home "x" 10000⟩, ⟨none, .move "x" 50000 20000⟩]
      totalEnqueued := 2
      state := .running }
    let sink : FrameSink Unit String := { sendFrame := fun _ s => (.error "link down", s) }
    (runner.dispatchToClient sink (.new ())).1 = .error (.transport "link down") ∧
      handedCount sink (.new ()) runner.nextDispatchBatch.1 = 1 ∧
      (runner.dispatchToClient sink (.new ())).2.1.jobQueue = [] ∧
      ¬ NothingLost runner (runner.dispatchToClient sink (.new ())).2.1
        (handedCount sink (.new ()) runner.nextDispatchBatch.1) := by
  intro runner sink
  refine ⟨by decide +kernel, by decide +kernel, by decide +kernel, fun hnothing => ?_⟩
  exact absurd hnothing.dispatched (by decide +kernel)

end Dryer.Workflow
