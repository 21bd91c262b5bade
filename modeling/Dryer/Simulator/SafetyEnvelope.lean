import Dryer.Simulator.Rig

/-!
# The safety envelope of the controller

A reset disarms the controller for good. A lost heartbeat switches a heater off where its
target is positive; what the envelope does not cover is a heater that is colder than a target
of zero or less.
-/
namespace Dryer.Simulator
open Library ControlProtocol

variable {θ : Type} {c d : SimController θ}

/-! ## Reset -/

/-- The event shows that a command was taken up or that something moved. -/
def Event.Arms : Event → Prop
  | .accepted .. | .executed .. | .endstop .. => True
  | _ => False

structure Disarmed (c : SimController θ) : Prop where
  fault : c.latchedFault = some "controller-reset"
  queue : c.queue = []
  targets : ∀ h ∈ c.heaters, h.targetMilliC = 0
  motions : ∀ a ∈ c.axes, a.motion = none

/-- Nothing moved on the way from one state to another. -/
structure Quiet (c d : SimController θ) : Prop where
  axes : d.axes = c.axes
  trace : ∃ later, d.trace = c.trace ++ later ∧ ∀ event ∈ later, ¬ event.Arms

theorem Quiet.refl (c : SimController θ) : Quiet c c := ⟨rfl, [], by simp, nofun⟩

theorem Quiet.trans {e : SimController θ} (hcd : Quiet c d) (hde : Quiet d e) : Quiet c e := by
  obtain ⟨haxes, earlier, htrace, hearlier⟩ := hcd
  obtain ⟨haxes', later, htrace', hlater⟩ := hde
  refine ⟨haxes'.trans haxes, earlier ++ later, ?_, ?_⟩
  · rw [htrace', htrace, List.append_assoc]
  · exact List.forall_mem_append.mpr ⟨hearlier, hlater⟩

theorem disarmed_reset (c : SimController θ) : Disarmed c.reset where
  fault := rfl
  queue := rfl
  targets := by simp [SimController.reset]
  motions := by simp [SimController.reset]

namespace Disarmed

theorem accept (h : Disarmed c) (incoming : CommandEnvelope) :
    Disarmed (c.accept incoming) ∧ Quiet c (c.accept incoming) := by
  obtain ⟨reason, hadmission⟩ : ∃ reason, c.admission incoming = .error reason := by
    simp only [SimController.admission, h.fault]
    exact ⟨_, rfl⟩
  unfold SimController.accept
  rw [hadmission]
  exact ⟨⟨h.fault, h.queue, h.targets, h.motions⟩, rfl, _, rfl, by simp [Event.Arms]⟩

theorem receive (h : Disarmed c) (arrived : List CommandEnvelope) :
    Disarmed (c.receive arrived) ∧ Quiet c (c.receive arrived) := by
  refine @SimController.foldl_accept θ (fun d _ => Disarmed d ∧ Quiet c d)
    (fun d _ incoming h => ?_) _ [] ?_ arrived
  · obtain ⟨hd, hquiet⟩ := h
    obtain ⟨hnext, hstep⟩ := hd.accept incoming
    exact ⟨hnext, hquiet.trans hstep⟩
  · exact ⟨⟨h.fault, h.queue, h.targets, h.motions⟩, rfl, [], by simp, nofun⟩

/-- A heater without a target is left as it is, but for the plant. -/
theorem enforce_eq {h : HeaterState θ} (htarget : h.targetMilliC = 0) (now last : Tick) :
    h.enforce now last = (h, []) := by
  unfold HeaterState.enforce
  split
  · rfl
  · rw [if_neg]
    rw [htarget]
    exact fun hpos => absurd hpos.2.1 (by decide)

theorem advance_eq {a : AxisState} (hmotion : a.motion = none) (now : Tick) :
    a.advance now = (a, []) := by
  unfold AxisState.advance
  rw [hmotion]

theorem startDue_eq (h : c.queue = []) : c.startDue = c := by
  rw [SimController.startDue, h, SimController.startFront, ← h]

theorem execute [F64 θ] (h : Disarmed c) : Disarmed c.execute ∧ Quiet c c.execute := by
  obtain ⟨events, next, hexecute, hevents⟩ := c.execute_eq
  have hdue : c.due = [] := by rw [SimController.due, h.queue, List.takeWhile_nil]
  have haxes : c.axes.map (fun a => (a.advance c.now).1) = c.axes :=
    (List.map_congr_left fun a ha =>
      congrArg Prod.fst (advance_eq (h.motions a ha) c.now)).trans (List.map_id _)
  rw [hdue, hevents hdue, startDue_eq h.queue] at hexecute
  simp only [List.map_nil, List.foldl_nil, haxes, List.nil_append] at hexecute
  rw [hexecute]
  refine ⟨⟨h.fault, ?_, ?_, h.motions⟩, rfl, _, rfl, ?_⟩
  · simp [h.queue]
  · simp only [List.mem_map]
    rintro _ ⟨heater, hheater, rfl⟩
    rw [enforce_eq (h.targets heater hheater)]
    exact h.targets heater hheater
  · intro event hevent
    simp only [SimController.stepEvents, List.mem_append, List.mem_flatMap] at hevent
    obtain (⟨heater, hheater, hevent⟩ | ⟨a, ha, hevent⟩) | hevent := hevent
    · rw [enforce_eq (h.targets heater hheater)] at hevent
      cases hevent
    · rw [advance_eq (h.motions a ha)] at hevent
      cases hevent
    · split at hevent
      · obtain ⟨heater, -, rfl⟩ := List.mem_map.mp hevent
        exact id
      · cases hevent

theorem step [F64 θ] {rig : Rig θ} (h : Disarmed rig.controller) (event : RigEvent) :
    Disarmed ((rigMachine θ).step rig event).1.controller ∧
      Quiet rig.controller ((rigMachine θ).step rig event).1.controller := by
  have hmoves := rigMoves_step rig event
  generalize ((rigMachine θ).step rig event).1.controller = d,
    ((rigMachine θ).step rig event).2 = m at hmoves ⊢
  cases hmoves with
  | stay => exact ⟨h, .refl _⟩
  | accept bytes incoming => exact h.accept incoming
  | window window =>
    exact ⟨⟨h.fault, h.queue, h.targets, h.motions⟩, rfl, [],
      by simp [SimController.setQueueWindow], nofun⟩
  | reset =>
    refine ⟨disarmed_reset _, ?_, _, (List.append_assoc _ _ _).trans
      (List.append_assoc _ _ _), ?_⟩
    · refine (List.map_congr_left fun a ha => ?_).trans (List.map_id _)
      simp [← h.motions a ha]
    · intro event hevent
      simp only [List.mem_append, List.mem_map, List.mem_singleton] at hevent
      obtain rfl | ⟨heater, -, rfl⟩ | rfl := hevent
      · exact id
      · exact id
      · exact id
  | step arrived =>
    obtain ⟨hreceived, hquiet⟩ := h.receive arrived
    obtain ⟨hexecuted, hlast⟩ := hreceived.execute
    exact ⟨hexecuted, hquiet.trans hlast⟩

end Disarmed

/-- After a reset nothing takes the fault back, whatever follows: nothing is queued, no heater
has a target, no axis moves, and no event says otherwise. -/
theorem reset_latches [F64 θ] (rig : Rig θ) (events : List RigEvent) :
    Disarmed
        ((rigMachine θ).run { rig with controller := rig.controller.reset } events).1.controller ∧
      Quiet rig.controller.reset
        ((rigMachine θ).run { rig with controller := rig.controller.reset } events).1.controller ∧
      ((rigMachine θ).run { rig with controller := rig.controller.reset }
          events).1.controller.axes.map (fun a => (a.cfg, a.positionUm)) =
        rig.controller.axes.map fun a => (a.cfg, a.positionUm) := by
  have hrun := Machine.run_invariant
    (P := fun next _ => Disarmed next.controller ∧ Quiet rig.controller.reset next.controller)
    (M := rigMachine θ) (fun next _ event h => by
      obtain ⟨hnext, hquiet⟩ := h.1.step event
      exact ⟨hnext, h.2.trans hquiet⟩)
    (s := { rig with controller := rig.controller.reset })
    ⟨disarmed_reset _, .refl _⟩ events
  refine ⟨hrun.1, hrun.2, ?_⟩
  rw [hrun.2.axes]
  simp [SimController.reset, Function.comp_def]

/-! ## Heartbeats -/

/-- The last heartbeat is no older than a timeout. -/
def Fresh (c : SimController θ) (timeout : Tick) : Prop :=
  c.now.toNat - c.lastHeartbeat.toNat ≤ timeout.toNat

/-- A heater that depends on heartbeats is on only without a fault and with a heartbeat. -/
def HeatersSafe (c : SimController θ) : Prop :=
  ∀ h ∈ c.heaters, ∀ timeout, h.cfg.heartbeatTimeout = some timeout → h.dutyOn = true →
    c.latchedFault = none ∧ Fresh c timeout

/-- Where the envelope does not switch a heater off itself, since its target is not positive,
the heater is not colder than its target. -/
def ColdHeatersCovered [F64 θ] (c : SimController θ) : Prop :=
  ∀ h ∈ c.heaters, ∀ timeout, h.cfg.heartbeatTimeout = some timeout → h.forcedSafe = false →
    h.targetMilliC ≤ 0 → F64.toI64 h.milliC < h.targetMilliC →
    c.latchedFault = none ∧ Fresh c timeout

/-- In a step the condition is about the heaters as the commands of the step leave them. -/
def ColdStepCovered [F64 θ] (rig : Rig θ) (event : RigEvent) : Prop :=
  event = .step → ColdHeatersCovered rig.received.startDue

theorem drive_dutyOn [F64 θ] (h : HeaterState θ) {timeout : Tick}
    (htimeout : h.cfg.heartbeatTimeout = some timeout) (now last : Tick) (ambient : Int64) :
    ((h.enforce now last).1.drive ambient).dutyOn = true ↔
      h.forcedSafe = false ∧ F64.toI64 h.milliC < h.targetMilliC ∧
        (0 < h.targetMilliC → now.toNat - last.toNat ≤ timeout.toNat) := by
  have hoverdue : U64.saturatingSub now last > timeout ↔
      ¬ now.toNat - last.toNat ≤ timeout.toNat := by
    rw [gt_iff_lt, UInt64.lt_iff_toNat_lt, U64.toNat_saturatingSub, not_le]
  unfold HeaterState.enforce
  rw [htimeout]
  simp only [hoverdue]
  split_ifs with hlost
  · simp only [HeaterState.drive]
    grind
  · simp only [HeaterState.drive]
    grind

theorem enforce_cfg (h : HeaterState θ) (now last : Tick) : (h.enforce now last).1.cfg = h.cfg := by
  unfold HeaterState.enforce
  grind

/-- A step is safe exactly when its cold heaters are covered, as long as a fault disarms. -/
theorem heatersSafe_execute_iff [F64 θ] (h : c.latchedFault = none ∨ Disarmed c) :
    HeatersSafe c.execute ↔ ColdHeatersCovered c.startDue := by
  obtain ⟨_, hstart, -⟩ := c.startFront_eq c.queue
  obtain ⟨_, _, hexecute, -⟩ := c.execute_eq
  have htargets : ∀ heater ∈ c.startDue.heaters, 0 < heater.targetMilliC →
      c.latchedFault = none := by
    intro heater hheater hpositive
    obtain hnone | hdisarmed := h
    · exact hnone
    · rw [Disarmed.startDue_eq hdisarmed.queue] at hheater
      rw [hdisarmed.targets heater hheater] at hpositive
      exact absurd hpositive (by decide)
  rw [SimController.startDue, hstart] at htargets ⊢
  rw [HeatersSafe, ColdHeatersCovered, hexecute]
  simp only [List.forall_mem_map, Fresh]
  refine forall₂_congr fun heater hheater => forall_congr' fun timeout => ?_
  have hcfg : ((heater.enforce c.now c.lastHeartbeat).1.drive c.ambientMilliC).cfg = heater.cfg :=
    enforce_cfg heater c.now c.lastHeartbeat
  rw [hcfg]
  refine imp_congr_right fun htimeout => ?_
  rw [drive_dutyOn heater htimeout]
  constructor
  · intro hsafe hforced hnonpos hcold
    exact hsafe ⟨hforced, hcold, fun hpositive => absurd hpositive (Int64.not_lt.mpr hnonpos)⟩
  · rintro hcovered ⟨hforced, hcold, hfresh⟩
    obtain hpositive | hnonpos := Int64.lt_or_le 0 heater.targetMilliC
    · exact ⟨htargets heater hheater hpositive, hfresh hpositive⟩
    · exact hcovered hforced hnonpos hcold

/-- Accepting a command switches no heater, and can only bring a heartbeat. -/
theorem HeatersSafe.accept (h : HeatersSafe c) (incoming : CommandEnvelope) :
    HeatersSafe (c.accept incoming) := by
  have haccepts := c.accepts_accept incoming
  generalize c.accept incoming = d, c.admitted incoming = m at haccepts ⊢
  cases haccepts with
  | reject | queue => exact h
  | heartbeat =>
    intro heater hheater timeout htimeout hduty
    exact ⟨(h heater hheater timeout htimeout hduty).1, by simp [Fresh]⟩

/-- A fault is latched by a reset only, and disarms. -/
theorem latched_step [F64 θ] {rig : Rig θ} (event : RigEvent)
    (h : rig.controller.latchedFault = none ∨ Disarmed rig.controller) :
    ((rigMachine θ).step rig event).1.controller.latchedFault = none ∨
      Disarmed ((rigMachine θ).step rig event).1.controller := by
  obtain hnone | hdisarmed := h
  · have hmoves := rigMoves_step rig event
    generalize ((rigMachine θ).step rig event).1.controller = d,
      ((rigMachine θ).step rig event).2 = m at hmoves ⊢
    cases hmoves with
    | stay | window => exact .inl hnone
    | accept bytes incoming => exact .inl ((SimController.accept_latchedFault _ _).trans hnone)
    | reset => exact .inr (disarmed_reset _)
    | step arrived =>
      obtain ⟨_, _, hexecute, -⟩ := (rig.controller.receive arrived).execute_eq
      rw [hexecute]
      exact .inl ((SimController.receive_latchedFault _ _).trans hnone)
  · exact .inr (hdisarmed.step event).1

/-- Between the steps heaters stay as safe as they are. -/
theorem HeatersSafe.step [F64 θ] {rig : Rig θ} (h : HeatersSafe rig.controller)
    {event : RigEvent} (hevent : event ≠ .step) :
    HeatersSafe ((rigMachine θ).step rig event).1.controller := by
  have hmoves := rigMoves_step rig event
  generalize ((rigMachine θ).step rig event).1.controller = d,
    ((rigMachine θ).step rig event).2 = m at hmoves ⊢
  cases hmoves with
  | stay | window => exact h
  | accept bytes incoming => exact h.accept incoming
  | reset =>
    intro heater hheater timeout htimeout hduty
    obtain ⟨_, -, rfl⟩ := List.mem_map.mp hheater
    cases hduty
  | step => exact absurd rfl hevent

/-- Heaters that depend on heartbeats are safe throughout a run exactly when in each of its
steps no heater is colder than a target of zero or less, unless it may be on. -/
theorem heaters_safe_iff [F64 θ] (ambientMilliC : Int64) (heaters : List HeaterCfg)
    (axes : List AxisCfg) (cfg : TransportConfig) (events : List RigEvent) :
    (rigMachine θ).Always (fun rig => HeatersSafe rig.controller)
        (.new ambientMilliC heaters axes cfg) events ↔
      (rigMachine θ).Along ColdStepCovered (.new ambientMilliC heaters axes cfg) events := by
  have hstep (rig : Rig θ) (h : rig.controller.latchedFault = none ∨ Disarmed rig.controller) :
      HeatersSafe ((rigMachine θ).step rig .step).1.controller ↔ ColdStepCovered rig .step := by
    have hreceived : rig.received.latchedFault = none ∨ Disarmed rig.received := by
      obtain hnone | hdisarmed := h
      · exact .inl ((SimController.receive_latchedFault _ _).trans hnone)
      · exact .inr (hdisarmed.receive _).1
    have hiff := heatersSafe_execute_iff hreceived
    exact ⟨fun hsafe _ => hiff.mp hsafe, fun hcovered => hiff.mpr (hcovered rfl)⟩
  refine Machine.always_iff_along (A := fun _ _ => True)
    (P := fun rig : Rig θ => HeatersSafe rig.controller ∧
      (rig.controller.latchedFault = none ∨ Disarmed rig.controller))
    (fun _ h => h.1) ?_ ?_ ?_ (Machine.along_of_forall (fun _ _ => trivial) events)
  · intro rig event h _ hcovered
    refine ⟨?_, latched_step event h.2⟩
    by_cases hevent : event = .step
    · subst hevent
      exact (hstep rig h.2).mpr hcovered
    · exact h.1.step hevent
  · intro rig event h _ hsafe hevent
    subst hevent
    exact (hstep rig h.2).mp hsafe rfl
  · refine ⟨fun heater hheater timeout htimeout hduty => ?_, .inl rfl⟩
    obtain ⟨_, -, rfl⟩ := List.mem_map.mp hheater
    cases hduty

/-- A heater in a room below freezing is switched on after a reset. -/
theorem reset_heats_cold_heater :
    ¬ (rigMachine ℤ).Always (fun rig => HeatersSafe rig.controller)
      (.new (-5000) [⟨"hotend_heater", 200000, 1, "off", some 500000⟩] [] .default)
      [.reset, .step] := by
  intro h
  have hlatched := (h.2.2 _ (.head _) 500000 rfl (by decide +kernel)).1
  cases hlatched

end Dryer.Simulator
