import Dryer.Workflow.Dispatch

/-!
# Faults of the runner

A status without a heartbeat puts the runner into a fault. Nearly every call assigns the state of
the runner, and none of them ends the fault.
-/
namespace Dryer.Workflow
open Library ControlProtocol ControlClient Daemon

variable {σ ε : Type}

/-- A call of a runner that dispatches into a client. -/
inductive ClientCall where
  | runner (event : RunnerEvent)
  | dispatchToClient

/-- What a call emits: the mark of the runner, or the result of the dispatch. -/
inductive CallOutput (ε : Type) where
  | mark (mark : RunnerMark)
  | sent (result : Except (SendError ε) (List SendReceipt))

/-- A returned batch is empty, and a dispatch succeeds without sending anything. -/
def CallOutput.DispatchesNothing : CallOutput ε → Prop
  | .mark (.enqueued _) => True
  | .mark (.dispatched batch) => batch = []
  | .sent result => result = .ok []

/-- A runner with a client, over any sink. -/
def clientMachine (sink : FrameSink σ ε) :
    Machine (WorkflowRunner × CommandClient σ) ClientCall (CallOutput ε) where
  step := fun (runner, client) call =>
    match call with
    | .runner event =>
      let (runner, marks) := runnerMachine.step runner event
      ((runner, client), marks.map .mark)
    | .dispatchToClient =>
      let (result, runner, client) := runner.dispatchToClient sink client
      ((runner, client), [.sent result])

/-! ## One call -/

namespace WorkflowRunner

variable {runner : WorkflowRunner}

theorem resumed_of_faulted (h : runner.state = .faulted) : runner.resumed = .faulted := by
  simp [resumed, h]

/-- A runner in a fault stays in it, whatever the status says. -/
theorem checkedState_of_faulted (h : runner.state = .faulted)
    (status : ControllerSessionStatus) : runner.checkedState status = .faulted := by
  simp [checkedState, h]

theorem updateControllerStatus_of_faulted {status : ControllerSessionStatus}
    (h : runner.checkedState status = .faulted) :
    (runner.updateControllerStatus status).state = .faulted := by
  simp [updateControllerStatus, h]

theorem nextDispatchBatch_of_faulted (h : runner.state = .faulted) :
    runner.nextDispatchBatch = ([], runner) := by
  rw [nextDispatchBatch, if_pos h]

theorem dispatchToClient_of_faulted (h : runner.state = .faulted) (sink : FrameSink σ ε)
    (client : CommandClient σ) :
    runner.dispatchToClient sink client = (.ok [], runner, client) := by
  rw [dispatchToClient, nextDispatchBatch_of_faulted h]
  rfl

end WorkflowRunner

/-- A call of a runner in a fault leaves it there, and dispatches nothing. -/
theorem runnerStep_of_faulted {runner : WorkflowRunner} (h : runner.state = .faulted)
    (event : RunnerEvent) :
    (runnerMachine.step runner event).1.state = .faulted ∧
      ∀ mark ∈ (runnerMachine.step runner event).2,
        (CallOutput.mark mark : CallOutput ε).DispatchesNothing := by
  have hresumed := WorkflowRunner.resumed_of_faulted h
  have henqueued {α : Type} (result : Except RunnerError α) (items : List CommandEnvelope) :
      ∀ mark ∈ markEnqueued result items,
        (CallOutput.mark mark : CallOutput ε).DispatchesNothing := by
    intro mark hmark
    cases result with
    | error => cases hmark
    | ok =>
      obtain rfl := List.mem_singleton.mp hmark
      trivial
  cases event with
  | setAuditor | clearAuditor => exact ⟨h, fun _ hmark => absurd hmark List.not_mem_nil⟩
  | enqueue envelope =>
    refine ⟨?_, henqueued _ _⟩
    simp only [runnerMachine, WorkflowRunner.enqueue]
    split
    · exact h
    · exact hresumed
  | enqueueBatch items =>
    refine ⟨?_, henqueued _ _⟩
    simp only [runnerMachine, WorkflowRunner.enqueueBatch]
    split
    · exact h
    split
    · exact h
    · exact hresumed
  | updateControllerStatus status =>
    refine ⟨?_, fun _ hmark => absurd hmark List.not_mem_nil⟩
    apply WorkflowRunner.updateControllerStatus_of_faulted
    exact WorkflowRunner.checkedState_of_faulted h status
  | nextDispatchBatch =>
    simp only [runnerMachine, WorkflowRunner.nextDispatchBatch_of_faulted h]
    exact ⟨h, List.forall_mem_singleton.mpr rfl⟩

/-! ## Runs -/

/-- The runner is in a fault with this client, and has dispatched nothing since. -/
structure InFault (client : CommandClient σ) (s : WorkflowRunner × CommandClient σ)
    (outputs : List (CallOutput ε)) : Prop where
  state : s.1.state = .faulted
  client : s.2 = client
  nothing : ∀ output ∈ outputs, output.DispatchesNothing

theorem InFault.step {sink : FrameSink σ ε} {client : CommandClient σ}
    {s : WorkflowRunner × CommandClient σ} {outputs : List (CallOutput ε)}
    (h : InFault client s outputs) (call : ClientCall) :
    InFault client ((clientMachine sink).step s call).1
      (outputs ++ ((clientMachine sink).step s call).2) := by
  obtain ⟨runner, client⟩ := s
  obtain ⟨hstate, rfl, hnothing⟩ := h
  cases call with
  | runner event =>
    obtain ⟨hnext, hmarks⟩ := runnerStep_of_faulted hstate event
    refine ⟨hnext, rfl, ?_⟩
    exact List.forall_mem_append.mpr ⟨hnothing, List.forall_mem_map.mpr hmarks⟩
  | dispatchToClient =>
    simp only [clientMachine, WorkflowRunner.dispatchToClient_of_faulted hstate]
    refine ⟨hstate, rfl, ?_⟩
    exact List.forall_mem_append.mpr ⟨hnothing, List.forall_mem_singleton.mpr rfl⟩

/-- After a status without a heartbeat no later sequence of calls brings the runner out of the
fault, returns a command or sends one to the client. -/
theorem faulted_is_absorbing (sink : FrameSink σ ε) (runner : WorkflowRunner)
    (client : CommandClient σ) {status : ControllerSessionStatus}
    (hbeat : status.heartbeatOk = false) (calls : List ClientCall) :
    let outcome := (clientMachine sink).run (runner.updateControllerStatus status, client) calls
    outcome.1.1.state = .faulted ∧ outcome.1.2 = client ∧
      ∀ output ∈ outcome.2, output.DispatchesNothing := by
  have hfaulted : (runner.updateControllerStatus status).state = .faulted := by
    apply WorkflowRunner.updateControllerStatus_of_faulted
    simp [WorkflowRunner.checkedState, hbeat]
  have hnew : InFault client (runner.updateControllerStatus status, client)
      ([] : List (CallOutput ε)) := ⟨hfaulted, rfl, nofun⟩
  obtain ⟨hstate, hclient, hnothing⟩ := Machine.run_invariant (M := clientMachine sink)
    (P := InFault client) (fun _ _ call h => h.step call) hnew calls
  exact ⟨hstate, hclient, hnothing⟩

/-- A healthy status, another command and two dispatches after a lost heartbeat. -/
theorem faulted_after_lost_heartbeat :
    let sink : FrameSink (List (List UInt8)) String :=
      { sendFrame := fun frame frames => (.ok (), frames ++ [frame]) }
    let lost : ControllerSessionStatus := ⟨"mcu1", 50000, 0, 16, 0, 1000, 90000, false, false⟩
    let runner := ((WorkflowRunner.new .default).enqueue ⟨none, .home "x" 10000⟩).2
    let calls : List ClientCall := [.runner (.updateControllerStatus { lost with
      heartbeatOk := true }), .runner (.enqueue ⟨none, .move "x" 500 10000⟩),
      .runner .nextDispatchBatch, .dispatchToClient]
    let outcome := (clientMachine sink).run (runner.updateControllerStatus lost, .new []) calls
    outcome.1.1.state = .faulted ∧ outcome.1.2 = .new [] ∧
      ∀ output ∈ outcome.2, output.DispatchesNothing := by
  intro sink lost runner calls outcome
  exact faulted_is_absorbing sink runner (.new []) rfl calls

end Dryer.Workflow
