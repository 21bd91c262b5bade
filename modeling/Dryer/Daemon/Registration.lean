import Dryer.ControlClient.SessionSafety
import Dryer.Daemon.ControllerDaemon
import Mathlib.Data.List.Nodup

/-!
# Registering controllers

The clock sessions of a cluster under any interleaving of registrations and calls. A
registration puts a new session in the place of one with the same name, while responses to
requests of the old one are still on their way.
-/
namespace Dryer.Daemon
open Library Clock ControlProtocol ControlClient

/-- A daemon beside the sequences of the requests that reached the transport of each
controller. -/
structure Registry where
  daemon : ControllerDaemon
  handed : String → List UInt32

inductive RegistryEvent (ε : Type) where
  | addController (name : String)
  | registerController (name : String) (heartbeatTimeoutUs : UInt64)
  | call (name : String) (event : SessionEvent ε)
  /-- The response to a request of the controller, which may be late or repeated. -/
  | deliver (name : String) (request : ℕ) (now : HostTick) (response : ClockResponse)

/-- The response to a request ended the exchange of the last of all requests so far. -/
inductive RegistryMark where
  | answered (name : String) (request requests : ℕ) (act : SessionAct)

/-- The response was produced for the last request. -/
def RegistryMark.Fresh : RegistryMark → Prop
  | .answered _ request requests _ => request + 1 = requests

instance : DecidablePred RegistryMark.Fresh
  | .answered _ request requests _ => inferInstanceAs (Decidable (request + 1 = requests))

namespace Registry

def new (maxSlewPpb : I128) (timeoutTicks : UInt64) : Registry where
  daemon := { ControllerDaemon.new with clusterSync := .new maxSlewPpb timeoutTicks }
  handed _ := []

def session (registry : Registry) (name : String) : Option ClockSession :=
  registry.daemon.clusterSync.session name

def withCluster (registry : Registry) (clusterSync : MultiControllerClockSync) : Registry :=
  { registry with daemon := { registry.daemon with clusterSync } }

def withSession (registry : Registry) (name : String) (session : ClockSession) : Registry :=
  registry.withCluster { registry.daemon.clusterSync with
    sessions := registry.daemon.clusterSync.sessions.insert name session }

/-- A call of the session of a controller, which has to be registered. -/
def call {ε : Type} (registry : Registry) (name : String) (event : SessionEvent ε) :
    Registry × List SessionAct :=
  match registry.session name with
  | none => (registry, [])
  | some session =>
    let (next, acts) := (sessionMachine ε).step session event
    ({ registry.withSession name next with
        handed := Function.update registry.handed name
          (registry.handed name ++ handedSequences acts) }, acts)

end Registry

def registryMachine (ε : Type) : Machine Registry (RegistryEvent ε) RegistryMark where
  step registry
    | .addController name =>
      (registry.withCluster (registry.daemon.clusterSync.addController name).2, [])
    | .registerController name heartbeatTimeoutUs =>
      ({ registry with daemon := registry.daemon.registerController name heartbeatTimeoutUs }, [])
    | .call name event => ((registry.call name event).1, [])
    | .deliver name request now response =>
      match (registry.handed name)[request]? with
      | none => (registry, [])
      | some sequence =>
        let (next, acts) := registry.call name
          (.respond now (ClockResponseFrame.bytes ⟨sequence, response⟩) : SessionEvent ε)
        (next, acts.map (.answered name request (registry.handed name).length))

/-- No controller is registered again when it has made a request. -/
def RegistersFirst {ε : Type} (registry : Registry) : RegistryEvent ε → Prop
  | .addController name | .registerController name _ => registry.handed name = []
  | _ => True

/-- Requests are numbered in order, and the pending exchange is that of the last. -/
structure Numbered (session : ClockSession) (handed : List UInt32) : Prop where
  sequences : ∀ (request : ℕ) (sequence : UInt32), handed[request]? = some sequence →
    sequence.toNat = request
  length : handed.length ≤ 2 ^ 32
  next : session.nextSequence = UInt32.ofNat handed.length
  exhausted : session.exhausted = true ↔ handed.length = 2 ^ 32
  pending : ∀ exchange, session.pending = some exchange →
    handed.getLast? = some exchange.sequence

/-- The sessions number the requests of their controllers. -/
structure Registered (registry : Registry) : Prop where
  known : ∀ name session, registry.session name = some session →
    Numbered session (registry.handed name)
  unknown : ∀ name, registry.session name = none → registry.handed name = []

/-! ## One session -/

/-- A response that ends an exchange carries its sequence. -/
theorem respond_acts {ε : Type} {session : ClockSession} {now : HostTick}
    {response : ClockResponseFrame}
    (h : ((sessionMachine ε).step session (.respond now response.bytes)).2 ≠ []) :
    ∃ exchange, session.pending = some exchange ∧ exchange.sequence = response.sequence := by
  have hdecode : decodeClockResponse response.bytes = .ok response :=
    (clockResponseFrame_codes.decode_iff _ response).mpr ⟨trivial, rfl⟩
  cases hpending : session.pending with
  | none => simp [sessionMachine, ClockSession.matchResponse, decodeClockResponseFrame, hdecode,
      hpending] at h
  | some exchange =>
    refine ⟨exchange, rfl, ?_⟩
    by_contra hother
    simp [sessionMachine, ClockSession.matchResponse, decodeClockResponseFrame, hdecode,
      hpending, Ne.symm hother] at h

namespace Numbered

variable {session next : ClockSession} {handed : List UInt32}

theorem of_new {maxSlewPpb : I128} {timeoutTicks : UInt64}
    (h : ClockSession.new maxSlewPpb timeoutTicks = .ok session) : Numbered session [] := by
  obtain ⟨hpending, hfresh, hnext, -, -⟩ := ClockSession.new_eq_ok h
  exact ⟨nofun, Nat.zero_le _, hnext, by simp [hfresh], by simp [hpending]⟩

theorem nodup (h : Numbered session handed) : handed.Nodup := by
  rw [List.nodup_iff_getElem?_ne_getElem?]
  intro m n hmn hn heq
  have hsecond := h.sequences n handed[n] (List.getElem?_eq_getElem hn)
  have hfirst := h.sequences m handed[n] (heq.trans (List.getElem?_eq_getElem hn))
  omega

/-- The pending exchange is that of the last request. -/
theorem last (h : Numbered session handed) {exchange : PendingClockExchange} {request : ℕ}
    (hpending : session.pending = some exchange)
    (hrequest : handed[request]? = some exchange.sequence) : request + 1 = handed.length := by
  have hlast := h.pending exchange hpending
  rw [List.getLast?_eq_getElem?] at hlast
  have hsequence := h.sequences _ _ hlast
  rw [h.sequences request _ hrequest] at hsequence
  obtain ⟨hlt, -⟩ := List.getElem?_eq_some_iff.mp hrequest
  omega

/-- The next request gets the next number. -/
theorem handOver (h : Numbered session handed) (now : HostTick) (delivered : Bool)
    (hfresh : session.exhausted = false) :
    Numbered (session.handOver now delivered) (handed ++ [session.nextSequence]) := by
  have hroom : handed.length < 2 ^ 32 := by
    refine lt_of_le_of_ne h.length fun hfull => ?_
    rw [h.exhausted.mpr hfull] at hfresh
    cases hfresh
  have hnext : session.nextSequence.toNat = handed.length := by
    rw [h.next, UInt32.toNat_ofNat_of_lt' hroom]
  constructor
  case sequences =>
    intro request sequence hrequest
    rw [List.getElem?_append] at hrequest
    split at hrequest
    · exact h.sequences request sequence hrequest
    · rw [List.getElem?_singleton] at hrequest
      grind
  case length =>
    rw [List.length_append]
    exact hroom
  case next =>
    simp only [ClockSession.handOver, h.next, List.length_append, List.length_singleton,
      UInt32.ofNat_add]
    rfl
  case exhausted =>
    simp only [ClockSession.handOver, List.length_append, List.length_singleton, beq_iff_eq,
      ← UInt32.toNat_inj, hnext]
    grind
  case pending =>
    intro exchange hexchange
    cases delivered with
    | false => cases hexchange
    | true =>
      obtain rfl := Option.some.inj hexchange
      exact List.getLast?_concat

/-- A call of the session keeps the numbers. -/
theorem moves {acts : List SessionAct} (h : Numbered session handed)
    (hmoves : session.Moves next acts) : Numbered next (handed ++ handedSequences acts) := by
  cases hmoves with
  | stay => simpa [handedSequences] using h
  | hand now delivered hpending hfresh =>
    simpa [handedSequences, requestSequence_bytes] using h.handOver now delivered hfresh
  | push | giveUp =>
    rw [show handedSequences _ = [] from rfl, List.append_nil]
    exact ⟨h.sequences, h.length, h.next, h.exhausted, by simp⟩

end Numbered

/-! ## Runs -/

variable {ε : Type} {registry : Registry}

theorem session_withSession (registry : Registry) (name other : String)
    (session : ClockSession) :
    (registry.withSession name session).session other =
      if name = other then some session else registry.session other := by
  simp only [Registry.session, Registry.withSession, Registry.withCluster,
    MultiControllerClockSync.session, Std.TreeMap.get?_eq_getElem?, Std.TreeMap.getElem?_insert,
    Std.compare_eq_iff_eq]

theorem call_of_session {name : String} {session : ClockSession}
    (h : registry.session name = some session) (event : SessionEvent ε) :
    registry.call name event =
      ({ registry.withSession name ((sessionMachine ε).step session event).1 with
          handed := Function.update registry.handed name
            (registry.handed name ++ handedSequences ((sessionMachine ε).step session event).2) },
        ((sessionMachine ε).step session event).2) := by
  unfold Registry.call
  rw [h]

theorem call_of_none {name : String} (h : registry.session name = none)
    (event : SessionEvent ε) : registry.call name event = (registry, []) := by
  unfold Registry.call
  rw [h]

namespace Registered

/-- A session that numbers the requests of its controller may take the place of any other. -/
theorem withSession (h : Registered registry) {name : String} {session : ClockSession}
    {handed : List UInt32} (hnumbered : Numbered session handed) :
    Registered { registry.withSession name session with
      handed := Function.update registry.handed name handed } := by
  have hsession (other : String) : Registry.session { registry.withSession name session with
      handed := Function.update registry.handed name handed } other =
        if name = other then some session else registry.session other :=
    session_withSession registry name other session
  constructor
  · intro other found hfound
    rw [hsession] at hfound
    by_cases hsame : name = other
    · subst hsame
      rw [if_pos rfl] at hfound
      obtain rfl := Option.some.inj hfound
      simpa using hnumbered
    · rw [if_neg hsame] at hfound
      simpa [Ne.symm hsame] using h.known other found hfound
  · intro other hother
    rw [hsession] at hother
    by_cases hsame : name = other
    · rw [if_pos hsame] at hother
      cases hother
    · rw [if_neg hsame] at hother
      simpa [Ne.symm hsame] using h.unknown other hother

theorem addController (h : Registered registry) {name : String}
    (hnone : registry.handed name = []) :
    Registered (registry.withCluster (registry.daemon.clusterSync.addController name).2) := by
  unfold MultiControllerClockSync.addController
  split
  · exact h
  · rename_i session hnew
    have hnext : Registered { registry.withSession name session with
        handed := Function.update registry.handed name [] } := h.withSession (.of_new hnew)
    rwa [← hnone, Function.update_eq_self] at hnext

theorem call (h : Registered registry) (name : String) (event : SessionEvent ε) :
    Registered (registry.call name event).1 := by
  cases hsession : registry.session name with
  | none =>
    rw [call_of_none hsession]
    exact h
  | some session =>
    rw [call_of_session hsession]
    exact h.withSession ((h.known name session hsession).moves (session.moves_step event))

/-- The response to a request ends an exchange only if it is the last request. -/
theorem answers (h : Registered registry) {name : String} {request : ℕ} {sequence : UInt32}
    (hrequest : (registry.handed name)[request]? = some sequence) {now : HostTick}
    {response : ClockResponse}
    (hacts : (registry.call name
      (.respond now (ClockResponseFrame.bytes ⟨sequence, response⟩) : SessionEvent ε)).2 ≠ []) :
    request + 1 = (registry.handed name).length := by
  cases hsession : registry.session name with
  | none =>
    rw [call_of_none hsession] at hacts
    exact absurd rfl hacts
  | some session =>
    rw [call_of_session hsession] at hacts
    dsimp only at hacts
    obtain ⟨exchange, hpending, hsequence⟩ := respond_acts hacts
    exact (h.known name session hsession).last hpending (hsequence ▸ hrequest)

theorem step (h : Registered registry) (event : RegistryEvent ε)
    (hfirst : RegistersFirst registry event) :
    Registered ((registryMachine ε).step registry event).1 ∧
      ∀ mark ∈ ((registryMachine ε).step registry event).2, mark.Fresh := by
  cases event with
  | addController name => exact ⟨h.addController hfirst, nofun⟩
  | registerController name heartbeatTimeoutUs =>
    have hnext := h.addController hfirst
    exact ⟨⟨hnext.known, hnext.unknown⟩, nofun⟩
  | call name event => exact ⟨h.call name event, nofun⟩
  | deliver name request now response =>
    simp only [registryMachine]
    split
    · exact ⟨h, nofun⟩
    · rename_i sequence hrequest
      refine ⟨h.call name _, List.forall_mem_map.mpr fun act hact => ?_⟩
      exact h.answers hrequest (List.ne_nil_of_mem hact)

theorem nodup (h : Registered registry) (name : String) : (registry.handed name).Nodup := by
  cases hsession : registry.session name with
  | none =>
    rw [h.unknown name hsession]
    exact List.nodup_nil
  | some session => exact (h.known name session hsession).nodup

end Registered

/-- As long as no controller is registered again after a request, no response is taken for the
answer to a later request, and no sequence is used twice. -/
theorem no_stale_answer (maxSlewPpb : I128) (timeoutTicks : UInt64)
    {events : List (RegistryEvent ε)}
    (hfirst : (registryMachine ε).Along RegistersFirst (.new maxSlewPpb timeoutTicks) events) :
    (∀ mark ∈ ((registryMachine ε).run (.new maxSlewPpb timeoutTicks) events).2, mark.Fresh) ∧
      ∀ name, (((registryMachine ε).run (.new maxSlewPpb timeoutTicks) events).1.handed
        name).Nodup := by
  have hkept := Machine.run_along (M := registryMachine ε)
    (P := fun registry marks => Registered registry ∧ ∀ mark ∈ marks, mark.Fresh)
    (C := RegistersFirst) (fun registry marks event h hevent => ?_)
    ⟨⟨?_, ?_⟩, List.forall_mem_nil _⟩ hfirst
  · rw [List.nil_append] at hkept
    exact ⟨hkept.2, fun name => hkept.1.nodup name⟩
  · obtain ⟨hnext, hmarks⟩ := h.1.step event hevent
    exact ⟨hnext, List.forall_mem_append.mpr ⟨h.2, hmarks⟩⟩
  · intro name session hsession
    simp [Registry.new, Registry.session, MultiControllerClockSync.session,
      MultiControllerClockSync.new] at hsession
  · exact fun _ _ => rfl

/-- A controller whose first request is answered in time. -/
theorem no_stale_answer_first :
    let events : List (RegistryEvent Unit) :=
      [.registerController "mcu1" 50000, .call "mcu1" (.begin ⟨10⟩ (.ok ())),
        .deliver "mcu1" 0 ⟨30⟩ ⟨12, 14⟩]
    let run := (registryMachine Unit).run (.new ⟨0, by decide, by decide⟩ 100000) events
    run.1.handed "mcu1" = [0] ∧ run.2.length = 1 ∧ ∀ mark ∈ run.2, mark.Fresh := by
  intro events run
  have hfirst : (registryMachine Unit).Along RegistersFirst
      (.new ⟨0, by decide, by decide⟩ 100000) events := ⟨rfl, trivial, trivial, trivial⟩
  exact ⟨by decide +kernel, by decide +kernel, (no_stale_answer _ _ hfirst).1⟩

/-- After a second registration the response to the request of the first session completes the
exchange of the second. -/
theorem stale_answer_after_registration :
    let events : List (RegistryEvent Unit) :=
      [.addController "mcu1", .call "mcu1" (.begin ⟨10⟩ (.ok ())),
        .addController "mcu1", .call "mcu1" (.begin ⟨20⟩ (.ok ()))]
    let run := (registryMachine Unit).run (.new ⟨0, by decide, by decide⟩ 100000) events
    let response := ClockResponseFrame.bytes ⟨0, ⟨12, 14⟩⟩
    let late := (registryMachine Unit).step run.1 (.deliver "mcu1" 0 ⟨30⟩ ⟨12, 14⟩)
    run.1.handed "mcu1" = [0, 0] ∧
      ((run.1.session "mcu1").map fun session =>
        (session.acceptResponse response (clockAt ⟨30⟩) ()).1.isOk) = some true ∧
      ¬ ∀ mark ∈ late.2, mark.Fresh := by
  intro events run response late
  exact ⟨by decide +kernel, by decide +kernel, by decide +kernel⟩

end Dryer.Daemon
