import Dryer.Library.Histories
import Dryer.Library.Machine
import Dryer.Simulator.SimTransport

/-!
# Runs of the command link

What the link delivers was sent, no earlier than its latency allows and at most twice. A link
without loss, duplication and jitter is a queue that delivers every command exactly when its
latency has passed.
-/
namespace Dryer.Simulator
open Library ControlProtocol

inductive CommandLinkEvent where
  | send (now : Tick) (command : Command)
  | sendScheduled (now executeAt : Tick) (command : Command)
  | deliver (now : Tick)
  | dropLink
  | restoreLink

/-- One call on the link, with what it delivers and when. -/
def commandLinkMachine : Machine SimTransport CommandLinkEvent (Tick × CommandEnvelope) where
  step transport
    | .send now command => (transport.send now command, [])
    | .sendScheduled now executeAt command => (transport.sendScheduled now executeAt command, [])
    | .deliver now =>
      let (due, transport) := transport.deliverDue now
      (transport, due.map (now, ·))
    | .dropLink => (transport.dropLink, [])
    | .restoreLink => (transport.restoreLink, [])

/-- What a call sends, with its tick. -/
def CommandLinkEvent.sent : CommandLinkEvent → Option (Tick × CommandEnvelope)
  | .send now command => some (now, ⟨none, command⟩)
  | .sendScheduled now executeAt command => some (now, ⟨some executeAt, command⟩)
  | .deliver _ | .dropLink | .restoreLink => none

namespace SimTransport

variable {transport next : SimTransport}

/-- The tick at which a command arrives without jitter. -/
def arrival (cfg : TransportConfig) (now : Tick) : Tick := U64.saturatingAdd now cfg.latencyTicks

/-- What one send adds to the link: no copy, one, or two. -/
structure Copies (transport : SimTransport) (now : Tick) (message : CommandEnvelope)
    (copies : List (Tick × CommandEnvelope)) : Prop where
  same : ∀ copy ∈ copies, copy.2 = message
  late : ∀ copy ∈ copies, arrival transport.cfg now ≤ copy.1
  atMost : copies.length ≤ if transport.cfg.dupPerMille = 0 then 1 else 2
  kept : transport.linkUp = true → transport.cfg.lossPerMille = 0 → copies ≠ []
  exact : transport.cfg.jitterTicks = 0 → transport.cfg.dupPerMille = 0 →
    ∀ copy ∈ copies, copy.1 = arrival transport.cfg now

/-- Where the ticks do not run out, a command arrives after the latency. -/
theorem toNat_arrival {cfg : TransportConfig} {now : Tick}
    (hticks : now.toNat + cfg.latencyTicks.toNat < 2 ^ 64) :
    (arrival cfg now).toNat = now.toNat + cfg.latencyTicks.toNat := by
  rw [arrival, U64.toNat_saturatingAdd]
  omega

theorem roll_snd (transport : SimTransport) (perMille : UInt16) :
    ∃ rng, (transport.roll perMille).2 = { transport with rng } ∧
      (perMille = 0 → (transport.roll perMille).1 = false) := by
  unfold roll
  split
  · rename_i h
    exact ⟨_, rfl, fun hzero => absurd (hzero ▸ h) (UInt16.lt_irrefl 0)⟩
  · exact ⟨transport.rng, rfl, fun _ => rfl⟩

theorem jitter_snd (transport : SimTransport) :
    ∃ rng, transport.jitter.2 = { transport with rng } ∧
      (transport.cfg.jitterTicks = 0 → transport.jitter.1 = 0) := by
  unfold jitter
  split
  · rename_i h
    exact ⟨_, rfl, fun hzero => absurd (hzero ▸ h) (UInt64.lt_irrefl 0)⟩
  · exact ⟨transport.rng, rfl, fun _ => rfl⟩

theorem le_saturatingAdd (tick jitter : Tick) : tick ≤ U64.saturatingAdd tick jitter := by
  rw [UInt64.le_iff_toNat_le, U64.toNat_saturatingAdd]
  have hlt := tick.toNat_lt
  omega

theorem saturatingAdd_zero (tick : Tick) : U64.saturatingAdd tick 0 = tick := by
  rw [← UInt64.toNat_inj, U64.toNat_saturatingAdd]
  have hlt := tick.toNat_lt
  exact min_eq_left (by simp; omega)

theorem sendInner_eq (transport : SimTransport) (now : Tick) (executeAt : Option Tick)
    (command : Command) :
    ∃ rng copies, transport.sendInner now executeAt command =
        { transport with rng, inFlight := transport.inFlight ++ copies } ∧
      Copies transport now ⟨executeAt, command⟩ copies := by
  unfold sendInner
  split
  · rename_i hup
    obtain ⟨rng, hrolled, hlossless⟩ := transport.roll_snd transport.cfg.lossPerMille
    generalize transport.roll transport.cfg.lossPerMille = rolled at hrolled hlossless
    obtain ⟨lost, rolled⟩ := rolled
    dsimp only at hrolled hlossless ⊢
    subst hrolled
    split
    · rename_i hlost
      refine ⟨rng, [], by rw [List.append_nil], List.forall_mem_nil _, List.forall_mem_nil _,
        Nat.zero_le _, fun _ hzero => ?_, fun _ _ => List.forall_mem_nil _⟩
      rw [hlossless hzero] at hlost
      cases hlost
    · obtain ⟨rng', hjittered, hsteady⟩ := jitter_snd { transport with rng }
      generalize jitter { transport with rng } = jittered at hjittered hsteady
      obtain ⟨jitter, jittered⟩ := jittered
      dsimp only at hjittered hsteady ⊢
      subst hjittered
      have hlate : arrival transport.cfg now ≤
          U64.saturatingAdd (U64.saturatingAdd now transport.cfg.latencyTicks) jitter :=
        le_saturatingAdd _ _
      have hexact : transport.cfg.jitterTicks = 0 →
          U64.saturatingAdd (U64.saturatingAdd now transport.cfg.latencyTicks) jitter =
            arrival transport.cfg now := by
        intro hzero
        rw [hsteady hzero, saturatingAdd_zero, arrival]
      generalize U64.saturatingAdd (U64.saturatingAdd now transport.cfg.latencyTicks) jitter = tick
        at hlate hexact ⊢
      obtain ⟨rng'', hrolled, hsingle⟩ := roll_snd
        { transport with
          rng := rng'
          inFlight := transport.inFlight ++ [(tick, (⟨executeAt, command⟩ : CommandEnvelope))] }
        transport.cfg.dupPerMille
      generalize roll
        { transport with
          rng := rng'
          inFlight := transport.inFlight ++ [(tick, (⟨executeAt, command⟩ : CommandEnvelope))] }
        transport.cfg.dupPerMille = rolled at hrolled hsingle
      obtain ⟨duplicated, rolled⟩ := rolled
      dsimp only at hrolled hsingle ⊢
      subst hrolled
      split
      · rename_i hduplicated
        have hdup : transport.cfg.dupPerMille ≠ 0 := by
          intro hzero
          rw [hsingle hzero] at hduplicated
          cases hduplicated
        refine ⟨rng'', [(tick, ⟨executeAt, command⟩),
            (U64.saturatingAdd tick 1, ⟨executeAt, command⟩)],
          by rw [List.append_assoc]; rfl, ?_, ?_, ?_, ?_, ?_⟩
        · simp
        · exact List.forall_mem_cons.mpr ⟨hlate, List.forall_mem_singleton.mpr
            (UInt64.le_trans hlate (le_saturatingAdd tick 1))⟩
        · simp [hdup]
        · exact fun _ _ => List.cons_ne_nil _ _
        · exact fun _ hzero => absurd hzero hdup
      · refine ⟨rng'', [(tick, ⟨executeAt, command⟩)], rfl, ?_, ?_, ?_, ?_, ?_⟩
        · simp
        · exact List.forall_mem_singleton.mpr hlate
        · split <;> simp
        · exact fun _ _ => List.cons_ne_nil _ _
        · exact fun hzero _ => List.forall_mem_singleton.mpr (hexact hzero)
  · rename_i hdown
    exact ⟨transport.rng, [], by rw [List.append_nil], List.forall_mem_nil _,
      List.forall_mem_nil _, Nat.zero_le _, fun hup => absurd hup hdown,
      fun _ _ => List.forall_mem_nil _⟩

theorem deliverDue_perm (transport : SimTransport) (now : Tick) :
    (transport.deliverDue now).1.Perm
      ((transport.inFlight.filter fun copy => copy.1 ≤ now).map Prod.snd) :=
  (List.perm_insertionSort _ _).map _

end SimTransport

/-! ## Safety -/

/-- What was sent, in order, each command with its tick. -/
def sentBy (events : List CommandLinkEvent) : List (Tick × CommandEnvelope) :=
  events.filterMap CommandLinkEvent.sent

theorem sentBy_append (events later : List CommandLinkEvent) :
    sentBy (events ++ later) = sentBy events ++ sentBy later :=
  List.filterMap_append

theorem sentBy_append_of_none {events : List CommandLinkEvent} {event : CommandLinkEvent}
    (h : event.sent = none) : sentBy (events ++ [event]) = sentBy events := by
  rw [sentBy_append, sentBy, sentBy, List.filterMap_cons_none h, List.filterMap_nil,
    List.append_nil]

/-- The ticks do not run out before the latency of a command that was sent has passed. -/
def TicksSuffice (cfg : TransportConfig) (events : List CommandLinkEvent) : Prop :=
  ∀ message ∈ sentBy events, message.1.toNat + cfg.latencyTicks.toNat < 2 ^ 64

/-- The copy is of a command that was sent, and its tick is not before the latency has passed. -/
def WasSent (cfg : TransportConfig) (events : List CommandLinkEvent)
    (copy : Tick × CommandEnvelope) : Prop :=
  ∃ sentAt, (sentAt, copy.2) ∈ sentBy events ∧ SimTransport.arrival cfg sentAt ≤ copy.1

theorem WasSent.append {cfg : TransportConfig} {events : List CommandLinkEvent}
    {copy : Tick × CommandEnvelope} (h : WasSent cfg events copy) (later : List CommandLinkEvent) :
    WasSent cfg (events ++ later) copy := by
  obtain ⟨sentAt, hmem, hle⟩ := h
  exact ⟨sentAt, sentBy_append events later ▸ List.mem_append_left _ hmem, hle⟩

/-- What the link holds and has delivered, by what was sent. -/
structure Accounted (cfg : TransportConfig) (events : List CommandLinkEvent)
    (transport : SimTransport) (delivered : List (Tick × CommandEnvelope)) : Prop where
  config : transport.cfg = cfg
  atMost : ∀ message, (delivered.map Prod.snd).count message +
      (transport.inFlight.map Prod.snd).count message ≤
    (if cfg.dupPerMille = 0 then 1 else 2) *
      ((sentBy events).map Prod.snd).count message
  kept : cfg.lossPerMille = 0 → CommandLinkEvent.dropLink ∉ events →
    transport.linkUp = true ∧ ∀ message,
      ((sentBy events).map Prod.snd).count message ≤
        (delivered.map Prod.snd).count message +
          (transport.inFlight.map Prod.snd).count message
  flying : ∀ copy ∈ transport.inFlight, WasSent cfg events copy
  arrived : ∀ copy ∈ delivered, WasSent cfg events copy

namespace Accounted

variable {cfg : TransportConfig} {events : List CommandLinkEvent} {transport : SimTransport}
  {delivered : List (Tick × CommandEnvelope)}

theorem send (h : Accounted cfg events transport delivered) {event : CommandLinkEvent} {now : Tick}
    {executeAt : Option Tick} {command : Command}
    (hsent : event.sent = some (now, ⟨executeAt, command⟩)) :
    Accounted cfg (events ++ [event]) (transport.sendInner now executeAt command) delivered := by
  obtain ⟨rng, copies, hnext, hcopies⟩ := transport.sendInner_eq now executeAt command
  have hall : sentBy (events ++ [event]) = sentBy events ++ [(now, ⟨executeAt, command⟩)] := by
    simp [sentBy, hsent]
  have hevent : event ≠ .dropLink := by
    rintro rfl
    cases hsent
  have hcopied : copies.map Prod.snd = List.replicate copies.length ⟨executeAt, command⟩ :=
    List.eq_replicate_iff.mpr ⟨by simp, List.forall_mem_map.mpr hcopies.same⟩
  have hlength := h.config ▸ hcopies.atMost
  rw [hnext]
  refine ⟨h.config, fun message => ?_, fun hloss hdrop => ?_, ?_, fun copy hcopy => ?_⟩
  · have hbefore := h.atMost message
    rw [hall]
    simp only [List.map_append, List.count_append, hcopied, List.count_replicate, List.map_cons,
      List.map_nil, List.count_singleton, Nat.mul_add]
    by_cases hsame : (⟨executeAt, command⟩ : CommandEnvelope) = message
    · simp only [hsame, beq_self_eq_true, if_true]
      omega
    · simp only [beq_eq_false_iff_ne.mpr hsame]
      simpa using hbefore
  · rw [List.mem_append, not_or] at hdrop
    obtain ⟨hup, hbefore⟩ := h.kept hloss hdrop.1
    have hsome := List.length_pos_of_ne_nil (hcopies.kept hup (h.config ▸ hloss))
    refine ⟨hup, fun message => ?_⟩
    have hmessage := hbefore message
    rw [hall]
    simp only [List.map_append, List.count_append, hcopied, List.count_replicate, List.map_cons,
      List.map_nil, List.count_singleton]
    by_cases hsame : (⟨executeAt, command⟩ : CommandEnvelope) = message
    · simp only [hsame, beq_self_eq_true, if_true]
      omega
    · simp only [beq_eq_false_iff_ne.mpr hsame]
      simpa using hmessage
  · refine List.forall_mem_append.mpr ⟨fun copy hcopy => (h.flying copy hcopy).append _, ?_⟩
    intro copy hcopy
    refine ⟨now, hall ▸ List.mem_append_right _ (List.mem_singleton.mpr ?_),
      h.config ▸ hcopies.late copy hcopy⟩
    rw [hcopies.same copy hcopy]
  · exact (h.arrived copy hcopy).append _

theorem deliver (h : Accounted cfg events transport delivered) (now : Tick) :
    Accounted cfg (events ++ [.deliver now]) (transport.deliverDue now).2
      (delivered ++ (transport.deliverDue now).1.map (now, ·)) := by
  have hall : sentBy (events ++ [.deliver now]) = sentBy events := sentBy_append_of_none rfl
  have hcount : ∀ message,
      (((transport.deliverDue now).1.map (now, ·)).map Prod.snd).count message +
          ((transport.deliverDue now).2.inFlight.map Prod.snd).count message =
        (transport.inFlight.map Prod.snd).count message := by
    intro message
    have hsnd : ((transport.deliverDue now).1.map (now, ·)).map Prod.snd =
        (transport.deliverDue now).1 := by simp [Function.comp_def]
    rw [hsnd, (transport.deliverDue_perm now).count_eq, ← List.count_append, ← List.map_append]
    have hparts := (List.filter_append_perm (fun copy => copy.1 ≤ now) transport.inFlight).map
      Prod.snd
    have hlater : (transport.deliverDue now).2.inFlight =
        transport.inFlight.filter fun copy => !decide (copy.1 ≤ now) :=
      List.filter_congr fun _ _ => decide_not
    rw [hlater]
    exact hparts.count_eq message
  refine ⟨h.config, fun message => ?_, fun hloss hdrop => ?_, ?_, ?_⟩
  · have hbefore := h.atMost message
    have hsame := hcount message
    rw [hall, List.map_append, List.count_append]
    omega
  · rw [List.mem_append, not_or] at hdrop
    obtain ⟨hup, hbefore⟩ := h.kept hloss hdrop.1
    refine ⟨hup, fun message => ?_⟩
    have hmessage := hbefore message
    have hsame := hcount message
    rw [hall, List.map_append, List.count_append]
    omega
  · exact fun copy hcopy => (h.flying copy (List.mem_of_mem_filter hcopy)).append _
  · refine List.forall_mem_append.mpr ⟨fun copy hcopy => (h.arrived copy hcopy).append _, ?_⟩
    intro copy hcopy
    obtain ⟨message, hmessage, rfl⟩ := List.mem_map.mp hcopy
    obtain ⟨due, hdue, rfl⟩ := List.mem_map.mp ((transport.deliverDue_perm now).mem_iff.mp hmessage)
    obtain ⟨hdue, hnow⟩ := List.mem_filter.mp hdue
    obtain ⟨sentAt, hmem, hle⟩ := h.flying due hdue
    exact ⟨sentAt, hall ▸ hmem, UInt64.le_trans hle (of_decide_eq_true hnow)⟩

theorem dropLink (h : Accounted cfg events transport delivered) :
    Accounted cfg (events ++ [.dropLink]) transport.dropLink delivered := by
  have hall : sentBy (events ++ [.dropLink]) = sentBy events := sentBy_append_of_none rfl
  refine ⟨h.config, fun message => ?_, fun _ hdrop => absurd (by simp) hdrop,
    List.forall_mem_nil _, fun copy hcopy => (h.arrived copy hcopy).append _⟩
  rw [hall]
  exact (Nat.add_le_add_left (Nat.zero_le _) _).trans (h.atMost message)

theorem restoreLink (h : Accounted cfg events transport delivered) :
    Accounted cfg (events ++ [.restoreLink]) transport.restoreLink delivered := by
  have hall : sentBy (events ++ [.restoreLink]) = sentBy events := sentBy_append_of_none rfl
  refine ⟨h.config, hall ▸ h.atMost, fun hloss hdrop => ⟨rfl, ?_⟩,
    fun copy hcopy => (h.flying copy hcopy).append _,
    fun copy hcopy => (h.arrived copy hcopy).append _⟩
  rw [List.mem_append, not_or] at hdrop
  exact hall ▸ (h.kept hloss hdrop.1).2

theorem run (cfg : TransportConfig) (events : List CommandLinkEvent) :
    Accounted cfg events (commandLinkMachine.run (.new cfg) events).1
      (commandLinkMachine.run (.new cfg) events).2 := by
  refine Machine.run_induction (P := Accounted cfg) ?_
    (fun events transport delivered event h => ?_) events
  · exact ⟨rfl, fun _ => Nat.zero_le _, fun _ _ => ⟨rfl, fun _ => Nat.zero_le _⟩,
      List.forall_mem_nil _, List.forall_mem_nil _⟩
  · cases event with
    | send now command => simpa [commandLinkMachine, SimTransport.send] using h.send rfl
    | sendScheduled now executeAt command =>
      simpa [commandLinkMachine, SimTransport.sendScheduled] using h.send rfl
    | deliver now => exact h.deliver now
    | dropLink => simpa [commandLinkMachine] using h.dropLink
    | restoreLink => simpa [commandLinkMachine] using h.restoreLink

end Accounted

/-- Over every run, whatever the link loses, repeats and delays: while the ticks do not run out,
what it delivers was sent at least the latency before, and no command is delivered more than twice
for each time that it was sent, or more than once where the link does not duplicate. A link that
neither loses commands nor is dropped still holds what it has not delivered. -/
theorem link_invents_nothing (cfg : TransportConfig) (events : List CommandLinkEvent) :
    let after := commandLinkMachine.run (.new cfg) events
    let delivered := fun message => (after.2.map Prod.snd).count message
    let held := fun message => (after.1.inFlight.map Prod.snd).count message
    let sent := fun message => ((sentBy events).map Prod.snd).count message
    (TicksSuffice cfg events → ∀ copy ∈ after.2, ∃ sentAt, (sentAt, copy.2) ∈ sentBy events ∧
      sentAt.toNat + cfg.latencyTicks.toNat ≤ copy.1.toNat) ∧
    (∀ message, delivered message + held message ≤
      (if cfg.dupPerMille = 0 then 1 else 2) * sent message) ∧
    (cfg.lossPerMille = 0 → CommandLinkEvent.dropLink ∉ events →
      ∀ message, sent message ≤ delivered message + held message) := by
  have h := Accounted.run cfg events
  refine ⟨fun hticks copy hcopy => ?_, h.atMost, fun hloss hdrop => (h.kept hloss hdrop).2⟩
  obtain ⟨sentAt, hsent, hlate⟩ := h.arrived copy hcopy
  refine ⟨sentAt, hsent, ?_⟩
  rw [← SimTransport.toNat_arrival (hticks _ hsent)]
  exact UInt64.le_iff_toNat_le.mp hlate

/-- A link that duplicates and delays everything. -/
def noisyConfig : TransportConfig :=
  { TransportConfig.default with
    dupPerMille := 1000
    jitterTicks := 50
    jitterTicks_lt := by decide }

def noisyEvents : List CommandLinkEvent :=
  [.send 10 (.home "x" 1000), .sendScheduled 20 100000 .heartbeat, .deliver 1000]

/-- Both copies of both commands come after the latency. -/
theorem link_invents_nothing_duplicated :
    let delivered := (commandLinkMachine.run (.new noisyConfig) noisyEvents).2
    delivered.length = 4 ∧ ∀ copy ∈ delivered, ∃ sentAt,
      (sentAt, copy.2) ∈ sentBy noisyEvents ∧ sentAt.toNat + 200 ≤ copy.1.toNat :=
  ⟨by decide, (link_invents_nothing noisyConfig noisyEvents).1 (by unfold TicksSuffice; decide)⟩

/-! ## The link as a queue -/

/-- The arrival of a command that was sent. -/
def arriving (cfg : TransportConfig) (message : Tick × CommandEnvelope) :
    Tick × CommandEnvelope :=
  (SimTransport.arrival cfg message.1, message.2)

/-- What was sent, first what has been delivered, then what is in flight. -/
structure Queues (cfg : TransportConfig) (now : Tick) (events : List CommandLinkEvent)
    (transport : SimTransport) (delivered : List (Tick × CommandEnvelope)) : Prop where
  config : transport.cfg = cfg
  up : transport.linkUp = true
  split : ∃ done waiting, sentBy events = done ++ waiting ∧
    delivered.map Prod.snd = done.map Prod.snd ∧
    transport.inFlight = waiting.map (arriving cfg) ∧
    ∀ message ∈ done, SimTransport.arrival cfg message.1 ≤ now

theorem arrival_mono (cfg : TransportConfig) {a b : Tick} (h : a ≤ b) :
    (SimTransport.arrival cfg a).toNat ≤ (SimTransport.arrival cfg b).toNat := by
  rw [UInt64.le_iff_toNat_le] at h
  simp only [SimTransport.arrival, U64.toNat_saturatingAdd]
  omega

/-- Over a lossless link one send adds one copy. -/
theorem SimTransport.Copies.eq_singleton {transport : SimTransport} {now : Tick}
    {message : CommandEnvelope} {copies : List (Tick × CommandEnvelope)}
    (h : transport.Copies now message copies) (hup : transport.linkUp = true)
    (hloss : transport.cfg.lossPerMille = 0) (hdup : transport.cfg.dupPerMille = 0)
    (hjitter : transport.cfg.jitterTicks = 0) :
    copies = [arriving transport.cfg (now, message)] := by
  have hmost := h.atMost
  rw [if_pos hdup] at hmost
  obtain ⟨copy, rfl⟩ := List.length_eq_one_iff.mp
    (Nat.le_antisymm hmost (List.length_pos_of_ne_nil (h.kept hup hloss)))
  have htick := h.exact hjitter hdup copy List.mem_cons_self
  have hsame := h.same copy List.mem_cons_self
  rw [arriving, ← htick, ← hsame]

namespace Queues

variable {cfg : TransportConfig} {last : Tick} {events : List CommandLinkEvent}
  {transport : SimTransport} {delivered : List (Tick × CommandEnvelope)}

theorem send (h : Queues cfg last events transport delivered) (hloss : cfg.lossPerMille = 0)
    (hdup : cfg.dupPerMille = 0) (hjitter : cfg.jitterTicks = 0) {event : CommandLinkEvent}
    {now : Tick} {executeAt : Option Tick} {command : Command}
    (hsent : event.sent = some (now, ⟨executeAt, command⟩)) :
    Queues cfg last (events ++ [event]) (transport.sendInner now executeAt command) delivered := by
  obtain ⟨done, waiting, hsplit, hdelivered, hflying, hdone⟩ := h.split
  obtain ⟨rng, copies, hnext, hcopies⟩ := transport.sendInner_eq now executeAt command
  have hcfg := h.config
  rw [hnext, hcopies.eq_singleton h.up (hcfg ▸ hloss) (hcfg ▸ hdup) (hcfg ▸ hjitter)]
  refine ⟨hcfg, h.up, done, waiting ++ [(now, ⟨executeAt, command⟩)], ?_, hdelivered, ?_, hdone⟩
  · rw [sentBy_append, hsplit, List.append_assoc]
    simp [sentBy, hsent]
  · simp [hflying, hcfg]

theorem deliver (h : Queues cfg last events transport delivered)
    (horder : (sentBy events).Pairwise fun a b => a.1 ≤ b.1) {now : Tick} (hnow : now ≤ last) :
    Queues cfg last (events ++ [.deliver now]) (transport.deliverDue now).2
      (delivered ++ (transport.deliverDue now).1.map (now, ·)) := by
  obtain ⟨done, waiting, hsplit, hdelivered, hflying, hdone⟩ := h.split
  have hwaiting : waiting.Pairwise fun a b => (SimTransport.arrival cfg a.1).toNat ≤
      (SimTransport.arrival cfg b.1).toNat := by
    rw [hsplit] at horder
    exact (List.pairwise_append.mp horder).2.1.imp (arrival_mono cfg)
  -- the link is sorted by arrival, so that what is due is at its front and in the order it was sent
  have hsorted : ((waiting.map (arriving cfg)).filter fun copy => copy.1 ≤ now).Pairwise
      fun a b => a.1 ≤ b.1 := by
    refine List.Pairwise.filter _ (List.pairwise_map.mpr ?_)
    exact hwaiting.imp UInt64.le_iff_toNat_le.mpr
  have hdue : (transport.deliverDue now).1 =
      (waiting.filter fun message => SimTransport.arrival cfg message.1 ≤ now).map Prod.snd := by
    simp only [SimTransport.deliverDue, hflying]
    rw [hsorted.insertionSort_eq, List.filter_map, List.map_map]
    rfl
  have hlater : (transport.deliverDue now).2.inFlight =
      (waiting.filter fun message => ¬ SimTransport.arrival cfg message.1 ≤ now).map
        (arriving cfg) := by
    simp only [SimTransport.deliverDue, hflying]
    rw [List.filter_map]
    rfl
  refine ⟨h.config, h.up,
    done ++ waiting.filter fun message => SimTransport.arrival cfg message.1 ≤ now, _, ?_, ?_,
    hlater, List.forall_mem_append.mpr ⟨hdone, fun message hmessage => ?_⟩⟩
  · have hparts := filter_append_filter_not hwaiting now.toNat
    simp only [← UInt64.le_iff_toNat_le] at hparts
    rw [sentBy_append_of_none rfl, hsplit, List.append_assoc, hparts]
  · have hsnd : ((transport.deliverDue now).1.map (now, ·)).map Prod.snd =
        (transport.deliverDue now).1 := by simp [Function.comp_def]
    rw [List.map_append, List.map_append, hsnd, hdelivered, hdue]
  · exact UInt64.le_trans (of_decide_eq_true (List.mem_filter.mp hmessage).2) hnow

theorem run {cfg : TransportConfig} (hloss : cfg.lossPerMille = 0) (hdup : cfg.dupPerMille = 0)
    (hjitter : cfg.jitterTicks = 0) {last : Tick} {events : List CommandLinkEvent}
    (horder : (sentBy events).Pairwise fun a b => a.1 ≤ b.1)
    (hup : CommandLinkEvent.dropLink ∉ events)
    (hlast : ∀ now, CommandLinkEvent.deliver now ∈ events → now ≤ last) :
    Queues cfg last events (commandLinkMachine.run (.new cfg) events).1
      (commandLinkMachine.run (.new cfg) events).2 := by
  induction events using List.reverseRecOn with
  | nil => exact ⟨rfl, rfl, [], [], rfl, rfl, rfl, List.forall_mem_nil _⟩
  | append_singleton events event ih =>
    rw [sentBy_append] at horder
    have hbefore := (List.pairwise_append.mp horder).1
    have h := ih hbefore (fun hmem => hup (List.mem_append_left _ hmem))
      fun now hmem => hlast now (List.mem_append_left _ hmem)
    rw [Machine.run_append]
    cases event with
    | send now command =>
      simpa [commandLinkMachine, SimTransport.send] using h.send hloss hdup hjitter rfl
    | sendScheduled now executeAt command =>
      simpa [commandLinkMachine, SimTransport.sendScheduled] using h.send hloss hdup hjitter rfl
    | deliver now =>
      simpa [commandLinkMachine] using h.deliver hbefore (hlast now (by simp))
    | dropLink => exact absurd (by simp) hup
    | restoreLink =>
      obtain ⟨done, waiting, hsplit, hdelivered, hflying, hdone⟩ := h.split
      simpa [commandLinkMachine] using (⟨h.config, rfl, done, waiting,
        (sentBy_append_of_none rfl).trans hsplit, hdelivered, hflying, hdone⟩ :
          Queues cfg last (events ++ [.restoreLink]) (SimTransport.restoreLink _) _)

end Queues

section Passed

variable {cfg : TransportConfig} {events : List CommandLinkEvent} {now : Tick}

theorem arrival_le_iff (hticks : TicksSuffice cfg events) {message : Tick × CommandEnvelope}
    (hmessage : message ∈ sentBy events) : SimTransport.arrival cfg message.1 ≤ now ↔
      message.1.toNat + cfg.latencyTicks.toNat ≤ now.toNat := by
  rw [UInt64.le_iff_toNat_le, SimTransport.toNat_arrival (hticks message hmessage)]

/-- What has arrived is what the latency has passed for. -/
theorem filter_passed (hticks : TicksSuffice cfg events) :
    ((sentBy events).filter fun message =>
        message.1.toNat + cfg.latencyTicks.toNat ≤ now.toNat) =
      (sentBy events).filter fun message => SimTransport.arrival cfg message.1 ≤ now :=
  List.filter_congr fun _ hmessage => decide_eq_decide.mpr (arrival_le_iff hticks hmessage).symm

theorem filter_waiting (hticks : TicksSuffice cfg events) :
    ((sentBy events).filter fun message =>
        ¬ message.1.toNat + cfg.latencyTicks.toNat ≤ now.toNat) =
      (sentBy events).filter fun message => ¬ SimTransport.arrival cfg message.1 ≤ now :=
  List.filter_congr fun _ hmessage =>
    decide_eq_decide.mpr (not_congr (arrival_le_iff hticks hmessage).symm)

end Passed

/-- A link without loss, duplication and jitter that is never dropped is a queue, while the ticks do
not run out. When it is asked at a tick, it has delivered exactly the commands whose latency has
passed by then, each one once and in the order in which they were sent, and holds the others. -/
theorem lossless_link_is_queue {cfg : TransportConfig} (hloss : cfg.lossPerMille = 0)
    (hdup : cfg.dupPerMille = 0) (hjitter : cfg.jitterTicks = 0) {events : List CommandLinkEvent}
    (horder : (sentBy events).Pairwise fun a b => a.1 ≤ b.1)
    (hup : CommandLinkEvent.dropLink ∉ events) {now : Tick}
    (hlast : ∀ tick, CommandLinkEvent.deliver tick ∈ events → tick ≤ now)
    (hticks : TicksSuffice cfg events) :
    let after := commandLinkMachine.run (.new cfg) (events ++ [.deliver now])
    after.2.map Prod.snd = ((sentBy events).filter fun message =>
        message.1.toNat + cfg.latencyTicks.toNat ≤ now.toNat).map Prod.snd ∧
      after.1.inFlight.map Prod.snd = ((sentBy events).filter fun message =>
        ¬ message.1.toNat + cfg.latencyTicks.toNat ≤ now.toNat).map Prod.snd := by
  intro after
  rw [filter_passed hticks, filter_waiting hticks]
  have hall : sentBy (events ++ [.deliver now]) = sentBy events := sentBy_append_of_none rfl
  have h : Queues cfg now (events ++ [.deliver now]) after.1 after.2 := by
    apply Queues.run hloss hdup hjitter
    · rwa [hall]
    · simpa using hup
    · simpa [or_imp, forall_and] using hlast
  obtain ⟨done, waiting, hsplit, hdelivered, hflying, hdone⟩ := h.split
  have hlater : ∀ message ∈ waiting, ¬ SimTransport.arrival cfg message.1 ≤ now := by
    intro message hmessage
    have hheld : arriving cfg message ∈ after.1.inFlight :=
      hflying ▸ List.mem_map_of_mem hmessage
    rw [show after = _ from Machine.run_append events [.deliver now]] at hheld
    exact of_decide_eq_true (List.mem_filter.mp hheld).2
  rw [hall] at hsplit
  have hdoneAll : (done.filter fun message => SimTransport.arrival cfg message.1 ≤ now) = done :=
    List.filter_eq_self.mpr fun message hmessage => decide_eq_true (hdone message hmessage)
  have hdoneNone : (done.filter fun message => ¬ SimTransport.arrival cfg message.1 ≤ now) = [] :=
    List.filter_eq_nil_iff.mpr fun message hmessage => by simpa using hdone message hmessage
  have hwaitingNone :
      (waiting.filter fun message => SimTransport.arrival cfg message.1 ≤ now) = [] :=
    List.filter_eq_nil_iff.mpr fun message hmessage => by simpa using hlater message hmessage
  have hwaitingAll :
      (waiting.filter fun message => ¬ SimTransport.arrival cfg message.1 ≤ now) = waiting :=
    List.filter_eq_self.mpr fun message hmessage => decide_eq_true (hlater message hmessage)
  rw [hsplit, List.filter_append, List.filter_append, hdoneAll, hdoneNone, hwaitingNone,
    hwaitingAll, List.append_nil, List.nil_append, hdelivered, hflying, List.map_map]
  exact ⟨rfl, rfl⟩

/-- Two commands, of which the first has arrived. -/
theorem lossless_link_is_queue_two_commands :
    (commandLinkMachine.run (.new .default) ([.send 0 (.home "x" 1000),
      .sendScheduled 500 100000 .heartbeat, .deliver 100] ++ [.deliver 600])).2.map Prod.snd =
      [⟨none, .home "x" 1000⟩] := by
  refine (@lossless_link_is_queue .default rfl rfl rfl [.send 0 (.home "x" 1000),
    .sendScheduled 500 100000 .heartbeat, .deliver 100] (by decide) (by simp) 600 ?_
    (by unfold TicksSuffice; decide)).1.trans (by decide)
  intro tick htick
  obtain rfl : tick = 100 := by simpa using htick
  decide

end Dryer.Simulator
