import Dryer.Library.Components
import Dryer.Library.OrderedMaps
import Dryer.Simulator.ClockTransport

/-!
# Clusters of simulated clock links

One clock link for each controller, behind calls that name the controller. A call reaches the
link of its controller and no other one.
-/
namespace Dryer.Simulator
open Library ControlProtocol

abbrev ControllerId := UInt32

inductive SimClockClusterError where
  | duplicateController (controller : ControllerId)
  | unknownController (controller : ControllerId)
  | configuration (error : ClockTransportConfigError)
  | transport (controller : ControllerId) (source : SimClockTransportError)
  deriving DecidableEq

structure SimClockCluster where
  controllers : Std.TreeMap ControllerId SimClockTransport

def SimClockTransport.pendingLen (transport : SimClockTransport) : ℕ := transport.pending.length

namespace SimClockCluster

/-- Configure one more controller. -/
def configure (controllers : Std.TreeMap ControllerId SimClockTransport)
    (configuration : ControllerId × ClockTransportConfig) :
    Except SimClockClusterError (Std.TreeMap ControllerId SimClockTransport) := do
  Library.reject (controllers.contains configuration.1) (.duplicateController configuration.1)
  let transport ← (SimClockTransport.new configuration.2).mapError .configuration
  pure (controllers.insert configuration.1 transport)

def new (configurations : List (ControllerId × ClockTransportConfig)) :
    Except SimClockClusterError SimClockCluster := do
  let controllers ← configurations.foldlM configure ∅
  pure { controllers }

def controllerIds (cluster : SimClockCluster) : List ControllerId := cluster.controllers.keys

/-- A call on the link of a controller. -/
def onController {α : Type} (cluster : SimClockCluster) (controller : ControllerId)
    (call : SimClockTransport → Except SimClockTransportError α × SimClockTransport) :
    Except SimClockClusterError α × SimClockCluster :=
  match cluster.controllers[controller]? with
  | none => (.error (.unknownController controller), cluster)
  | some transport =>
    let (result, transport) := call transport
    (result.mapError (.transport controller),
      { cluster with controllers := cluster.controllers.insert controller transport })

def sendRequest (cluster : SimClockCluster) (controller : ControllerId) (hostSend : Tick)
    (frame : List UInt8) : Except SimClockClusterError Unit × SimClockCluster :=
  cluster.onController controller (·.sendRequest hostSend frame)

def receiveDue (cluster : SimClockCluster) (controller : ControllerId) (hostNow : Tick) :
    Except SimClockClusterError (Option SimClockFrame) × SimClockCluster :=
  cluster.onController controller fun transport =>
    let (frame, transport) := transport.receiveDue hostNow
    (.ok frame, transport)

def dropLink (cluster : SimClockCluster) (controller : ControllerId) :
    Except SimClockClusterError Unit × SimClockCluster :=
  cluster.onController controller fun transport => (.ok (), transport.dropLink)

def restoreLink (cluster : SimClockCluster) (controller : ControllerId) :
    Except SimClockClusterError Unit × SimClockCluster :=
  cluster.onController controller fun transport => (.ok (), transport.restoreLink)

def pendingLen (cluster : SimClockCluster) (controller : ControllerId) :
    Except SimClockClusterError ℕ :=
  okOr (cluster.controllers[controller]?.map SimClockTransport.pendingLen)
    (.unknownController controller)

/-! ## Configured controllers -/

variable {configurations : List (ControllerId × ClockTransportConfig)}
  {controllers : Std.TreeMap ControllerId SimClockTransport}

theorem configure_eq_ok {configuration : ControllerId × ClockTransportConfig}
    {next : Std.TreeMap ControllerId SimClockTransport} :
    configure controllers configuration = .ok next ↔
      configuration.1 ∉ controllers ∧ ∃ transport,
        SimClockTransport.new configuration.2 = .ok transport ∧
          controllers.insert configuration.1 transport = next := by
  simp only [configure, bind_eq_ok, reject_eq_ok, mapError_eq_ok, Std.TreeMap.contains_iff_mem]
  constructor
  · rintro ⟨-, hnew, transport, htransport, h⟩
    exact ⟨hnew, transport, htransport, Except.ok.inj h⟩
  · rintro ⟨hnew, transport, htransport, rfl⟩
    exact ⟨(), hnew, transport, htransport, rfl⟩

/-- The links of a cluster are those that it was configured with. -/
theorem getElem?_configureAll {configured : Std.TreeMap ControllerId SimClockTransport}
    (h : configurations.foldlM configure controllers = .ok configured)
    (controller : ControllerId) {transport : SimClockTransport} :
    configured[controller]? = some transport ↔ controllers[controller]? = some transport ∨
      ∃ cfg, (controller, cfg) ∈ configurations ∧ SimClockTransport.new cfg = .ok transport := by
  induction configurations generalizing controllers with
  | nil =>
    obtain rfl := Except.ok.inj h
    simp
  | cons configuration configurations ih =>
    obtain ⟨next, hnext, hrest⟩ := bind_eq_ok.mp h
    obtain ⟨hnew, added, hadded, rfl⟩ := configure_eq_ok.mp hnext
    rw [ih hrest, Std.TreeMap.getElem?_insert]
    split
    · rename_i heq
      obtain rfl := Std.LawfulEqCmp.eq_of_compare heq
      have hfree : controllers[configuration.1]? = none := by simpa using hnew
      simp only [hfree, Option.some.injEq, reduceCtorEq, false_or, List.mem_cons, or_and_right,
        exists_or]
      refine or_congr_left ⟨?_, ?_⟩
      · rintro rfl
        exact ⟨configuration.2, rfl, hadded⟩
      · rintro ⟨cfg, hcfg, htransport⟩
        rw [← hcfg, htransport] at hadded
        exact Except.ok.inj hadded.symm
    · rename_i hne
      refine or_congr_right ⟨?_, ?_⟩
      · rintro ⟨cfg, hmem, htransport⟩
        exact ⟨cfg, .tail _ hmem, htransport⟩
      · rintro ⟨cfg, hmem, htransport⟩
        obtain hfirst | hlater := List.mem_cons.mp hmem
        · exact absurd (by rw [← hfirst]; exact Std.ReflCmp.compare_self) hne
        · exact ⟨cfg, hlater, htransport⟩

theorem getElem?_of_new {cluster : SimClockCluster} (h : new configurations = .ok cluster)
    (controller : ControllerId) {transport : SimClockTransport} :
    cluster.controllers[controller]? = some transport ↔
      ∃ cfg, (controller, cfg) ∈ configurations ∧ SimClockTransport.new cfg = .ok transport := by
  obtain ⟨controllers, hall, h⟩ := bind_eq_ok.mp h
  obtain rfl := Except.ok.inj h
  simpa using getElem?_configureAll hall controller

/-- Every configuration of a cluster was accepted. -/
theorem exists_of_mem_configureAll {configured : Std.TreeMap ControllerId SimClockTransport}
    (h : configurations.foldlM configure controllers = .ok configured)
    {configuration : ControllerId × ClockTransportConfig} (hmem : configuration ∈ configurations) :
    ∃ transport, SimClockTransport.new configuration.2 = .ok transport := by
  induction configurations generalizing controllers with
  | nil => cases hmem
  | cons first configurations ih =>
    obtain ⟨next, hnext, hrest⟩ := bind_eq_ok.mp h
    obtain ⟨-, transport, htransport, -⟩ := configure_eq_ok.mp hnext
    obtain rfl | hlater := List.mem_cons.mp hmem
    · exact ⟨transport, htransport⟩
    · exact ih hrest hlater

end SimClockCluster

/-! ## Runs -/

inductive ClockLinkCall where
  | sendRequest (hostSend : Tick) (frame : List UInt8)
  | receiveDue (hostNow : Tick)
  | dropLink
  | restoreLink
  | pendingLen

inductive ClockLinkReply where
  | done
  | frame (frame : Option SimClockFrame)
  | pending (count : ℕ)
  deriving DecidableEq

/-- One link on its own. -/
def clockLinkMachine :
    Machine SimClockTransport ClockLinkCall (Except SimClockTransportError ClockLinkReply) where
  step transport
    | .sendRequest hostSend frame =>
      let (result, transport) := transport.sendRequest hostSend frame
      (transport, [result.map fun _ => .done])
    | .receiveDue hostNow =>
      let (frame, transport) := transport.receiveDue hostNow
      (transport, [.ok (.frame frame)])
    | .dropLink => (transport.dropLink, [.ok .done])
    | .restoreLink => (transport.restoreLink, [.ok .done])
    | .pendingLen => (transport, [.ok (.pending transport.pendingLen)])

/-- The calls on a cluster, with the replies under the controllers that were named. -/
def clockClusterMachine :
    Machine SimClockCluster (ControllerId × ClockLinkCall)
      (ControllerId × Except SimClockClusterError ClockLinkReply) where
  step cluster
    | (controller, .sendRequest hostSend frame) =>
      let (result, cluster) := cluster.sendRequest controller hostSend frame
      (cluster, [(controller, result.map fun _ => .done)])
    | (controller, .receiveDue hostNow) =>
      let (result, cluster) := cluster.receiveDue controller hostNow
      (cluster, [(controller, result.map .frame)])
    | (controller, .dropLink) =>
      let (result, cluster) := cluster.dropLink controller
      (cluster, [(controller, result.map fun _ => .done)])
    | (controller, .restoreLink) =>
      let (result, cluster) := cluster.restoreLink controller
      (cluster, [(controller, result.map fun _ => .done)])
    | (controller, .pendingLen) =>
      (cluster, [(controller, (cluster.pendingLen controller).map .pending)])

/-- What is addressed to one controller. -/
def addressedTo {α : Type} (controller : ControllerId) (entry : ControllerId × α) : Option α :=
  if entry.1 = controller then some entry.2 else none

/-- The link of a controller behind its cluster, if there is one. -/
def routedLinkMachine (controller : ControllerId) :
    Machine (Option SimClockTransport) ClockLinkCall
      (Except SimClockClusterError ClockLinkReply) where
  step
    | none, _ => (none, [.error (.unknownController controller)])
    | some transport, call =>
      let (transport, replies) := clockLinkMachine.step transport call
      (some transport, replies.map (·.mapError (.transport controller)))

namespace SimClockCluster

variable {cluster : SimClockCluster} {controller other : ControllerId}

theorem onController_of_none {α : Type}
    {call : SimClockTransport → Except SimClockTransportError α × SimClockTransport}
    (h : cluster.controllers[controller]? = none) :
    cluster.onController controller call = (.error (.unknownController controller), cluster) := by
  simp only [onController, h]

theorem onController_of_some {α : Type}
    {call : SimClockTransport → Except SimClockTransportError α × SimClockTransport}
    {transport : SimClockTransport} (h : cluster.controllers[controller]? = some transport) :
    cluster.onController controller call = ((call transport).1.mapError (.transport controller),
      ⟨cluster.controllers.insert controller (call transport).2⟩) := by
  simp only [onController, h]

/-- A call leaves the links of other controllers alone. -/
theorem getElem?_onController_of_ne {α : Type}
    (call : SimClockTransport → Except SimClockTransportError α × SimClockTransport)
    (h : other ≠ controller) :
    (cluster.onController other call).2.controllers[controller]? =
      cluster.controllers[controller]? := by
  cases hother : cluster.controllers[other]? with
  | none => rw [onController_of_none hother]
  | some transport =>
    rw [onController_of_some hother, Std.TreeMap.getElem?_insert, if_neg]
    exact fun heq => h (Std.LawfulEqCmp.eq_of_compare heq)

end SimClockCluster

/-- The link of a controller as a part of its cluster. -/
def linkOf (controller : ControllerId) :
    Component clockClusterMachine (routedLinkMachine controller) where
  input := addressedTo controller
  output := addressedTo controller
  contains cluster transport := cluster.controllers[controller]? = transport
  mine := by
    rintro cluster transport ⟨other, call⟩ own hlink hcall
    simp only [addressedTo, Option.ite_none_right_eq_some, Option.some.injEq] at hcall
    obtain ⟨rfl, rfl⟩ := hcall
    cases transport with
    | none =>
      cases call <;>
        simp [clockClusterMachine, routedLinkMachine, addressedTo, SimClockCluster.sendRequest,
          SimClockCluster.receiveDue, SimClockCluster.dropLink, SimClockCluster.restoreLink,
          SimClockCluster.pendingLen, SimClockCluster.onController_of_none hlink, hlink,
          Except.map, okOr]
    | some transport =>
      cases call with
      | sendRequest hostSend frame =>
        simp only [clockClusterMachine, routedLinkMachine, clockLinkMachine,
          SimClockCluster.sendRequest, SimClockCluster.onController_of_some hlink]
        cases (transport.sendRequest hostSend frame).1 <;>
          simp [addressedTo, Except.map, Except.mapError]
      | _ =>
        simp [clockClusterMachine, routedLinkMachine, clockLinkMachine, addressedTo,
          SimClockCluster.receiveDue, SimClockCluster.dropLink, SimClockCluster.restoreLink,
          SimClockCluster.pendingLen, SimClockCluster.onController_of_some hlink, hlink,
          Except.map, Except.mapError, okOr]
  others := by
    rintro cluster transport ⟨other, call⟩ hlink hother
    simp only [addressedTo, ite_eq_right_iff, reduceCtorEq, imp_false] at hother
    cases call <;>
      simp [clockClusterMachine, addressedTo, hother, SimClockCluster.sendRequest,
        SimClockCluster.receiveDue, SimClockCluster.dropLink, SimClockCluster.restoreLink,
        SimClockCluster.getElem?_onController_of_ne _ hother, hlink]

theorem routed_of_none (controller : ControllerId) (calls : List ClockLinkCall) :
    (routedLinkMachine controller).run none calls =
      (none, calls.map fun _ => .error (.unknownController controller)) := by
  induction calls with
  | nil => rfl
  | cons call calls ih =>
    have hstep : (routedLinkMachine controller).step none call =
        (none, [.error (.unknownController controller)]) := rfl
    rw [Machine.run_cons, hstep, ih]
    rfl

theorem routed_of_some (controller : ControllerId) (transport : SimClockTransport)
    (calls : List ClockLinkCall) :
    (routedLinkMachine controller).run (some transport) calls =
      (some (clockLinkMachine.run transport calls).1,
        (clockLinkMachine.run transport calls).2.map (·.mapError (.transport controller))) := by
  induction calls generalizing transport with
  | nil => rfl
  | cons call calls ih =>
    have hstep : (routedLinkMachine controller).step (some transport) call =
        (some (clockLinkMachine.step transport call).1,
          (clockLinkMachine.step transport call).2.map (·.mapError (.transport controller))) := rfl
    rw [Machine.run_cons, hstep, ih]
    simp

/-- A cluster is its links side by side. Whatever calls are interleaved, the calls on a
configured controller go as they do on its link alone, and a call on any other controller is
refused. -/
theorem cluster_isolates {configurations : List (ControllerId × ClockTransportConfig)}
    {cluster : SimClockCluster} (hnew : SimClockCluster.new configurations = .ok cluster)
    (calls : List (ControllerId × ClockLinkCall)) (controller : ControllerId) :
    let own := calls.filterMap (addressedTo controller)
    let after := clockClusterMachine.run cluster calls
    (∀ cfg, (controller, cfg) ∈ configurations → ∃ transport,
      SimClockTransport.new cfg = .ok transport ∧
      after.1.controllers[controller]? = some (clockLinkMachine.run transport own).1 ∧
      after.2.filterMap (addressedTo controller) =
        (clockLinkMachine.run transport own).2.map (·.mapError (.transport controller))) ∧
    ((∀ cfg, (controller, cfg) ∉ configurations) →
      after.1.controllers[controller]? = none ∧
      after.2.filterMap (addressedTo controller) =
        own.map fun _ => .error (.unknownController controller)) := by
  obtain ⟨hstate, hreplies⟩ := (linkOf controller).run (s := cluster) rfl calls
  refine ⟨fun cfg hcfg => ?_, fun hunknown => ?_⟩
  · obtain ⟨controllers, hall, -⟩ := bind_eq_ok.mp hnew
    obtain ⟨transport, htransport⟩ := SimClockCluster.exists_of_mem_configureAll hall hcfg
    have hlink := (SimClockCluster.getElem?_of_new hnew controller).mpr ⟨cfg, hcfg, htransport⟩
    rw [hlink, routed_of_some] at hstate hreplies
    exact ⟨transport, htransport, hstate, hreplies⟩
  · have hlink : cluster.controllers[controller]? = none := by
      rw [Option.eq_none_iff_forall_ne_some]
      intro transport hsome
      obtain ⟨cfg, hcfg, -⟩ := (SimClockCluster.getElem?_of_new hnew controller).mp hsome
      exact hunknown cfg hcfg
    rw [hlink, routed_of_none] at hstate hreplies
    exact ⟨hstate, hreplies⟩

/-- Two controllers, calls on both and on one that is not configured. -/
theorem cluster_isolates_two_controllers :
    ∃ cluster, SimClockCluster.new [(1, .default), (2, .default)] = .ok cluster ∧
      (clockClusterMachine.run cluster
        [(1, .sendRequest 10 (ClockRequestFrame.bytes ⟨0⟩)), (2, .dropLink), (3, .pendingLen),
          (1, .pendingLen), (2, .pendingLen)]).2.filterMap (addressedTo 1) =
        [.ok .done, .ok (.pending 1)] := by
  refine ⟨_, rfl, ?_⟩
  obtain ⟨transport, htransport, -, hreplies⟩ :=
    (@cluster_isolates [(1, .default), (2, .default)] _ rfl
      [(1, .sendRequest 10 (ClockRequestFrame.bytes ⟨0⟩)), (2, .dropLink), (3, .pendingLen),
        (1, .pendingLen), (2, .pendingLen)] 1).1 .default (by decide)
  rw [hreplies]
  obtain rfl := Except.ok.inj htransport
  decide +kernel

end Dryer.Simulator
