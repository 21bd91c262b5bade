import Dryer.Simulator.ClockCluster
import Dryer.Simulator.SoundEstimates
import Mathlib.Logic.Function.Basic

/-!
# Sessions over a cluster

One session for each controller, all over one cluster of links. The sessions share the cluster
and nothing else, so that a session does what it does over a link of its own.
-/
namespace Dryer.Simulator
open Library Clock ControlProtocol ControlClient

/-- What the host holds for one controller. -/
structure ClusterHost where
  session : ClockSession
  received : List SimClockFrame

structure ClusterLoop where
  cluster : SimClockCluster
  hosts : ControllerId → ClusterHost

/-- The link of a controller in the cluster as a sink at one host tick. -/
def clusterSink (controller : ControllerId) (now : HostTick) :
    FrameSink SimClockCluster SimClockClusterError where
  sendFrame frame cluster := cluster.sendRequest controller now.ticks frame

/-- One call for one controller. -/
def clusterLoopMachine :
    Machine ClusterLoop (ControllerId × ClockLoopEvent)
      (ControllerId × Except (ClockSessionError Empty) ClockExchangeReceipt) where
  step loop
    | (controller, .begin now) =>
      let host := loop.hosts controller
      let (_, session, cluster, _) :=
        host.session.begin (clusterSink controller now) loop.cluster (clockAt now) ()
      (⟨cluster, Function.update loop.hosts controller { host with session }⟩, [])
    | (controller, .receive now) =>
      let host := loop.hosts controller
      match loop.cluster.receiveDue controller now.ticks with
      | (.error _, cluster) => ({ loop with cluster }, [])
      | (.ok frame, cluster) =>
        (⟨cluster, Function.update loop.hosts controller
          { host with received := host.received ++ frame.toList }⟩, [])
    | (controller, .respond index now) =>
      let host := loop.hosts controller
      match host.received[index]? with
      | none => (loop, [])
      | some frame =>
        let (result, session, _) := host.session.acceptResponse frame.bytes (clockAt now) ()
        ({ loop with hosts := Function.update loop.hosts controller { host with session } },
          [(controller, result)])
    | (controller, .expire now) =>
      let host := loop.hosts controller
      let (_, session) := host.session.expire now
      ({ loop with hosts := Function.update loop.hosts controller { host with session } }, [])
    | (controller, .dropLink) => ({ loop with cluster := (loop.cluster.dropLink controller).2 }, [])
    | (controller, .restoreLink) =>
      ({ loop with cluster := (loop.cluster.restoreLink controller).2 }, [])

/-- The state of one controller within the whole. -/
structure Within (controller : ControllerId) (loop : ClusterLoop) (own : ClockLoop) : Prop where
  link : loop.cluster.controllers[controller]? = some own.transport
  host : loop.hosts controller = ⟨own.session, own.received⟩

/-- A call for a controller is timely for its own session. -/
def ClusterTimely (controller : ControllerId) (loop : ClusterLoop)
    (event : ControllerId × ClockLoopEvent) : Prop :=
  event.1 = controller → ∀ transport ∈ loop.cluster.controllers[controller]?,
    Timely ⟨(loop.hosts controller).session, transport, (loop.hosts controller).received⟩ event.2

instance (controller : ControllerId) (loop : ClusterLoop)
    (event : ControllerId × ClockLoopEvent) : Decidable (ClusterTimely controller loop event) :=
  inferInstanceAs (Decidable (_ → ∀ _ ∈ _, _))

/-- An event for a controller does to its own state what it does over a link of its own. -/
theorem Within.mine {controller : ControllerId} {loop : ClusterLoop} {own : ClockLoop}
    (h : Within controller loop own) (event : ClockLoopEvent) :
    Within controller (clusterLoopMachine.step loop (controller, event)).1
        (clockLoopMachine.step own event).1 ∧
      (clusterLoopMachine.step loop (controller, event)).2 =
        (clockLoopMachine.step own event).2.map (controller, ·) := by
  obtain ⟨hlink, hhost⟩ := h
  cases event with
  | begin now =>
    cases hpending : own.session.pending with
    | some exchange =>
      simp only [clusterLoopMachine, clockLoopMachine, ClockSession.begin, hhost, hpending]
      exact ⟨⟨hlink, Function.update_self ..⟩, rfl⟩
    | none =>
      cases hfresh : own.session.exhausted with
      | true =>
        simp only [clusterLoopMachine, clockLoopMachine, ClockSession.begin, hhost, hpending,
          hfresh, if_true]
        exact ⟨⟨hlink, Function.update_self ..⟩, rfl⟩
      | false =>
        simp only [clusterLoopMachine, clockLoopMachine, hhost,
          ClockSession.begin_eq _ _ _ _ _ hpending hfresh, clockSink, clusterSink,
          SimClockCluster.sendRequest, SimClockCluster.onController_of_some hlink]
        refine ⟨⟨Std.TreeMap.getElem?_insert_self, ?_⟩, rfl⟩
        cases (own.transport.sendRequest now.ticks
          (ClockRequestFrame.bytes ⟨own.session.nextSequence⟩)).1 <;>
          exact Function.update_self ..
  | receive now =>
    simp only [clusterLoopMachine, clockLoopMachine, hhost, SimClockCluster.receiveDue,
      SimClockCluster.onController_of_some hlink, Except.mapError]
    exact ⟨⟨Std.TreeMap.getElem?_insert_self, Function.update_self ..⟩, rfl⟩
  | respond index now =>
    simp only [clusterLoopMachine, clockLoopMachine, hhost]
    cases own.received[index]? with
    | none => exact ⟨⟨hlink, hhost⟩, rfl⟩
    | some frame => exact ⟨⟨hlink, Function.update_self ..⟩, rfl⟩
  | expire now =>
    simp only [clusterLoopMachine, clockLoopMachine, hhost]
    exact ⟨⟨hlink, Function.update_self ..⟩, rfl⟩
  | dropLink =>
    simp only [clusterLoopMachine, clockLoopMachine, SimClockCluster.dropLink,
      SimClockCluster.onController_of_some hlink]
    exact ⟨⟨Std.TreeMap.getElem?_insert_self, hhost⟩, rfl⟩
  | restoreLink =>
    simp only [clusterLoopMachine, clockLoopMachine, SimClockCluster.restoreLink,
      SimClockCluster.onController_of_some hlink]
    exact ⟨⟨Std.TreeMap.getElem?_insert_self, hhost⟩, rfl⟩

/-- A request to one controller leaves the links of the others alone. -/
theorem getElem?_begin_of_ne {controller other : ControllerId} (hother : other ≠ controller)
    (cluster : SimClockCluster) (session : ClockSession) (now : HostTick) :
    let (_, _, after, _) := session.begin (clusterSink other now) cluster (clockAt now) ()
    after.controllers[controller]? = cluster.controllers[controller]? := by
  cases hpending : session.pending with
  | some exchange => simp only [ClockSession.begin, hpending]
  | none =>
    cases hfresh : session.exhausted with
    | true => simp only [ClockSession.begin, hpending, hfresh, if_true]
    | false =>
      simp only [ClockSession.begin_eq _ _ _ _ _ hpending hfresh, clusterSink]
      exact SimClockCluster.getElem?_onController_of_ne _ hother

/-- An event for another controller leaves the state of a controller alone. -/
theorem Within.others {controller other : ControllerId} {loop : ClusterLoop} {own : ClockLoop}
    (h : Within controller loop own) (hother : other ≠ controller) (event : ClockLoopEvent) :
    Within controller (clusterLoopMachine.step loop (other, event)).1 own ∧
      ∀ result ∈ (clusterLoopMachine.step loop (other, event)).2, result.1 = other := by
  obtain ⟨hlink, hhost⟩ := h
  have hhosts : ∀ host, Function.update loop.hosts other host controller =
      ⟨own.session, own.received⟩ :=
    fun host => (Function.update_of_ne hother.symm ..).trans hhost
  cases event with
  | begin now =>
    exact ⟨⟨(getElem?_begin_of_ne hother ..).trans hlink, hhosts _⟩, List.forall_mem_nil _⟩
  | receive now =>
    have hkept : (loop.cluster.receiveDue other now.ticks).2.controllers[controller]? = _ :=
      (SimClockCluster.getElem?_onController_of_ne _ hother).trans hlink
    simp only [clusterLoopMachine]
    generalize loop.cluster.receiveDue other now.ticks = outcome at hkept
    obtain ⟨_ | frame, cluster⟩ := outcome
    · exact ⟨⟨hkept, hhost⟩, List.forall_mem_nil _⟩
    · exact ⟨⟨hkept, hhosts _⟩, List.forall_mem_nil _⟩
  | respond index now =>
    simp only [clusterLoopMachine]
    split
    · exact ⟨⟨hlink, hhost⟩, List.forall_mem_nil _⟩
    · exact ⟨⟨hlink, hhosts _⟩, List.forall_mem_singleton.mpr rfl⟩
  | expire now => exact ⟨⟨hlink, hhosts _⟩, List.forall_mem_nil _⟩
  | dropLink =>
    exact ⟨⟨(SimClockCluster.getElem?_onController_of_ne _ hother).trans hlink, hhost⟩,
      List.forall_mem_nil _⟩
  | restoreLink =>
    exact ⟨⟨(SimClockCluster.getElem?_onController_of_ne _ hother).trans hlink, hhost⟩,
      List.forall_mem_nil _⟩

/-- A session does over the cluster what it does over its own link. -/
def sessionOf (controller : ControllerId) :
    Component clusterLoopMachine clockLoopMachine where
  input := addressedTo controller
  output := addressedTo controller
  contains := Within controller
  mine := by
    rintro loop own ⟨other, event⟩ mine hwithin hevent
    simp only [addressedTo, Option.ite_none_right_eq_some, Option.some.injEq] at hevent
    obtain ⟨rfl, rfl⟩ := hevent
    obtain ⟨hnext, hout⟩ := hwithin.mine event
    refine ⟨hnext, ?_⟩
    rw [hout, List.filterMap_map]
    simp [Function.comp_def, addressedTo]
  others := by
    rintro loop own ⟨other, event⟩ hwithin hother
    simp only [addressedTo, ite_eq_right_iff, reduceCtorEq, imp_false] at hother
    obtain ⟨hnext, hout⟩ := hwithin.others hother event
    refine ⟨hnext, List.filterMap_eq_nil_iff.mpr fun result hresult => ?_⟩
    rw [addressedTo, if_neg]
    rwa [hout result hresult]

/-- Whatever the calls for the controllers of a cluster are interleaved with, no sample of a
controller is rejected, and every window that its session projects contains the reading of its
clock. The clock slews within the bound of the session, its responses take at least one tick,
and the calls for this controller are timely. -/
theorem cluster_windows_sound {configurations : List (ControllerId × ClockTransportConfig)}
    {loop : ClusterLoop} (hcluster : SimClockCluster.new configurations = .ok loop.cluster)
    {controller : ControllerId} {cfg : ClockTransportConfig}
    (hcontroller : (controller, cfg) ∈ configurations) {maxSlewPpb : I128} {timeoutTicks : UInt64}
    (hsession : ClockSession.new maxSlewPpb timeoutTicks = .ok (loop.hosts controller).session)
    (hreceived : (loop.hosts controller).received = [])
    (hslew : maxSlewPpb.val ≤ 1000000000)
    (hrate : |cfg.controllerClock.ratePpb.toInt| ≤ maxSlewPpb.val)
    (hlatency : 0 < cfg.response.latencyTicks) {events : List (ControllerId × ClockLoopEvent)}
    (htimely : clusterLoopMachine.Along (ClusterTimely controller) loop events) :
    (∀ result, (controller, result) ∈ (clusterLoopMachine.run loop events).2 →
      ¬ RejectedSample result) ∧
    ∀ host reading window, cfg.controllerClock.at host.ticks = .ok reading →
      ((clusterLoopMachine.run loop events).1.hosts controller).session.sync.controllerWindow
        host = .ok window →
      window.earliest.ticks ≤ reading ∧ reading ≤ window.latest.ticks := by
  obtain ⟨controllers, hall, -⟩ := bind_eq_ok.mp hcluster
  obtain ⟨transport, htransport⟩ := SimClockCluster.exists_of_mem_configureAll hall hcontroller
  have hlink := (SimClockCluster.getElem?_of_new hcluster controller).mpr
    ⟨cfg, hcontroller, htransport⟩
  have hwithin : Within controller loop ⟨(loop.hosts controller).session, transport, []⟩ :=
    ⟨hlink, by rw [← hreceived]⟩
  have hown : clockLoopMachine.Along Timely ⟨(loop.hosts controller).session, transport, []⟩
      (events.filterMap (sessionOf controller).input) := by
    refine (sessionOf controller).along ?_ hwithin htimely
    rintro before own ⟨other, event⟩ mine ⟨hlink, hhost⟩ hevent htimely
    simp only [sessionOf, addressedTo, Option.ite_none_right_eq_some, Option.some.injEq] at hevent
    obtain ⟨rfl, rfl⟩ := hevent
    have hnow := htimely rfl own.transport hlink
    rwa [hhost] at hnow
  obtain ⟨hafter, hresults⟩ := (sessionOf controller).run hwithin events
  obtain ⟨hsound, haccepted⟩ := Machine.run_along (M := clockLoopMachine)
    (P := fun own results => Sound maxSlewPpb cfg.controllerClock own ∧
      ∀ result ∈ results, ¬ RejectedSample result) (C := Timely)
    (fun own results event h hevent => ⟨h.1.step hslew hrate event hevent,
      List.forall_mem_append.mpr ⟨h.2, (h.1.fed.step hslew hrate event hevent).2⟩⟩)
    ⟨Sound.of_new hlatency hsession htransport, List.forall_mem_nil _⟩ hown
  refine ⟨fun result hresult => haccepted result ?_, fun host reading window hreading hwindow => ?_⟩
  · rw [List.nil_append, ← hresults]
    exact List.mem_filterMap.mpr ⟨_, hresult, if_pos rfl⟩
  · rw [hafter.host] at hwindow
    exact hsound.window hrate hreading hwindow

/-- Two controllers, one of them with a fast clock and its exchanges between those of the
other. -/
theorem cluster_windows_sound_two_controllers :
    let fast := { ClockTransportConfig.default with
      controllerClock := ⟨0, 5000, 1000, by decide⟩ }
    let events : List (ControllerId × ClockLoopEvent) :=
      [(1, .begin ⟨1000⟩), (2, .begin ⟨1010⟩), (2, .dropLink), (1, .receive ⟨1500⟩),
        (1, .respond 0 ⟨1500⟩), (2, .expire ⟨9000⟩), (1, .begin ⟨3000000⟩),
        (1, .receive ⟨3000500⟩), (1, .respond 1 ⟨3000500⟩)]
    ∃ cluster session window, SimClockCluster.new [(1, fast), (2, .default)] = .ok cluster ∧
      ClockSession.new ⟨2000, by decide, by decide⟩ 1000 = .ok session ∧
      ((clusterLoopMachine.run ⟨cluster, fun _ => ⟨session, []⟩⟩ events).1.hosts
        1).session.sync.controllerWindow ⟨4000000⟩ = .ok window ∧
      window.earliest.ticks ≤ 4005004 ∧ 4005004 ≤ window.latest.ticks := by
  intro fast events
  refine ⟨_, _, ⟨⟨4004535⟩, ⟨4004954⟩, ⟨4005373⟩⟩, rfl, rfl, by decide +kernel, ?_⟩
  exact (@cluster_windows_sound [(1, fast), (2, .default)] ⟨_, fun _ => ⟨_, []⟩⟩ rfl 1 fast
    (by decide) ⟨2000, by decide, by decide⟩ 1000 rfl rfl (by decide) (by decide) (by decide) events
    (by decide +kernel)).2 ⟨4000000⟩ 4005004 _ (by decide +kernel) (by decide +kernel)

end Dryer.Simulator
