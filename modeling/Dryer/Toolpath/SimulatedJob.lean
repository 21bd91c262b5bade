import Dryer.Simulator.AxisMotion
import Dryer.Simulator.CommandQueue
import Dryer.Toolpath.Auditor

/-!
# Audited jobs on the simulated controller

The audit reads a job as one command after the other. The controller starts all commands of
the job in one step, and of the motions for one axis only the last one takes effect.
-/
namespace Dryer.Toolpath
open Library ControlProtocol Simulator

variable {θ : Type} {name : String} {job : List Command}

/-! ## The last motion of an axis -/

/-- The last motion that a job has for an axis. -/
def lastMotion (name : String) (job : List Command) : Option Motion :=
  (job.filterMap (startedMotion name)).getLast?

/-- The audited position before the last motion of the axis, when that is a move, is such that
the move ends at its distance. -/
def MovesFromZero (job : List Command) (name : String) : Prop :=
  ∀ before distanceUm rateUmS after, job = before ++ .move name distanceUm rateUmS :: after →
    (∀ command ∈ after, startedMotion name command = none) →
      I64.saturatingAdd (travel name before) distanceUm = distanceUm

/-- What the audit does not see of an axis: where the way of its last motion leads, and that
this motion starts from position 0. -/
structure AxisCovered (limits : AuditLimits) (job : List Command) (name : String) : Prop where
  start : ∀ limit, limits.axes[name]? = some limit → limit.Contains 0
  way : ∀ limit, limits.axes[name]? = some limit → ∀ m, lastMotion name job = some m →
    ∀ steps, m.InProgress steps → limit.Contains (m.sweptUm steps)
  distance : MovesFromZero job name

theorem lastMotion_append (job : List Command) (command : Command) :
    lastMotion name (job ++ [command]) =
      (startedMotion name command).orElse fun _ => lastMotion name job :=
  getLast?_filterMap_append _ _ _

theorem travelBy_of_startedMotion_eq_none {command : Command}
    (h : startedMotion name command = none) (positionUm : Int64) :
    travelBy name positionUm command = positionUm := by
  cases command with
  | heartbeat | setHeaterTarget => rfl
  | home axis | move axis =>
    have hne : axis ≠ name := by
      rintro rfl
      simp [startedMotion] at h
    simp [travelBy, hne]

theorem travel_append (job : List Command) (command : Command) :
    travel name (job ++ [command]) = travelBy name (travel name job) command := by
  simp [travel]

theorem movesFromZero_append {command : Command} (h : startedMotion name command = none) :
    MovesFromZero (job ++ [command]) name ↔ MovesFromZero job name := by
  constructor
  · intro hmoves before distanceUm rateUmS after heq hafter
    refine hmoves before distanceUm rateUmS (after ++ [command]) (by simp [heq]) ?_
    exact List.forall_mem_append.mpr ⟨hafter, List.forall_mem_singleton.mpr h⟩
  · intro hmoves before distanceUm rateUmS after heq hafter
    obtain ⟨-, rfl, -⟩ | ⟨later, rfl, rfl⟩ := append_singleton_cases heq
    · simp [startedMotion] at h
    · exact hmoves before distanceUm rateUmS later rfl (List.forall_mem_append.mp hafter).1

theorem movesFromZero_append_motion {command : Command} {m : Motion}
    (h : startedMotion name command = some m) :
    MovesFromZero (job ++ [command]) name ↔ ∀ distanceUm rateUmS,
      command = .move name distanceUm rateUmS →
        I64.saturatingAdd (travel name job) distanceUm = distanceUm := by
  constructor
  · rintro hmoves distanceUm rateUmS rfl
    exact hmoves job distanceUm rateUmS [] rfl nofun
  · intro hmoves before distanceUm rateUmS after heq hafter
    obtain ⟨rfl, heq, -⟩ | ⟨later, -, rfl⟩ := append_singleton_cases heq
    · exact hmoves distanceUm rateUmS heq
    · have hnone := hafter command (List.mem_append_right _ (.head _))
      rw [h] at hnone
      cases hnone

/-- The audit computes the position at which the last motion ends, exactly when that motion
starts from 0. -/
theorem travel_eq_iff (job : List Command) (name : String) :
    travel name job = (lastMotion name job).elim 0 Motion.endUm ↔ MovesFromZero job name := by
  induction job using List.reverseRecOn with
  | nil => exact iff_of_true rfl (fun before _ _ _ heq => by simp at heq)
  | append_singleton job command ih =>
    rw [travel_append, lastMotion_append]
    cases hstart : startedMotion name command with
    | none => rw [travelBy_of_startedMotion_eq_none hstart, movesFromZero_append hstart]; exact ih
    | some m =>
      rw [movesFromZero_append_motion hstart, Option.orElse_some, Option.elim_some]
      cases starts_of_startedMotion hstart with
      | home rateUmS => simp [travelBy, homeMotion, Motion.endUm]
      | move distanceUm rateUmS => simp [travelBy, moveMotion, Motion.endUm]

/-! ## Sending -/

/-- The controller after the frames of a job and a number of steps. -/
def afterJob [F64 θ] (rig : Rig θ) (frames : List (List UInt8)) (steps : ℕ) : SimController θ :=
  ((rigMachine θ).run rig (frames.map .frame ++ List.replicate steps .step)).1.controller

structure Idle (c : SimController θ) : Prop where
  queue : c.queue = []
  motions : ∀ a ∈ c.axes, a.motion = none

def WithinLimits (limits : AuditLimits) (c : SimController θ) : Prop :=
  ∀ name limit a, limits.axes[name]? = some limit → c.axis? name = some a →
    limit.Contains a.positionUm

/-- Every axis is at the position that the audit computed for it. -/
def AtAudited (auditor : ToolpathAuditor) (job : List Command) (c : SimController θ) : Prop :=
  ∀ name a, c.axis? name = some a → a.positionUm = (auditor.positions job)[name]?.getD 0

/-- Of a job that passes, a limited axis ends within its limits when its last motion is a
move. -/
theorem contains_travel {auditor : ToolpathAuditor} (h : (auditor.audit job).passed)
    {limit : AxisLimit} (hlimit : auditor.limits.axes[name]? = some limit) {m : Motion}
    (hm : lastMotion name job = some m) (hmove : m.homing = false) :
    limit.Contains (travel name job) := by
  induction job using List.reverseRecOn with
  | nil => cases hm
  | append_singleton job command ih =>
    obtain ⟨hbefore, hinside⟩ := ToolpathAuditor.passed_append h
    rw [lastMotion_append] at hm
    cases hstart : startedMotion name command with
    | none =>
      rw [hstart] at hm
      rw [travel_append, travelBy_of_startedMotion_eq_none hstart]
      exact ih hbefore hm
    | some last =>
      obtain rfl : last = m := by simpa [hstart] using hm
      cases starts_of_startedMotion hstart with
      | home rateUmS => cases hmove
      | move distanceUm rateUmS => exact hinside name distanceUm rateUmS rfl limit hlimit

theorem AxisLimit.contains_of_between {limit : AxisLimit} {positionUm endUm : Int64}
    (hstart : limit.Contains 0) (hend : limit.Contains endUm)
    (h : (0 ≤ positionUm.toInt ∧ positionUm.toInt ≤ endUm.toInt) ∨
      (endUm.toInt ≤ positionUm.toInt ∧ positionUm.toInt ≤ 0)) : limit.Contains positionUm := by
  simp only [AxisLimit.Contains, Int64.le_iff_toInt_le, Int64.toInt_zero] at hstart hend ⊢
  omega

/-- With rates that fit, an audited job covers an axis when its limits contain 0 and its last
move starts from there. -/
theorem axisCovered_iff_of_rateFits {auditor : ToolpathAuditor}
    (hpassed : (auditor.audit job).passed) (hrates : ∀ command ∈ job, RateFits command) :
    AxisCovered auditor.limits job name ↔
      (∀ limit, auditor.limits.axes[name]? = some limit → limit.Contains 0) ∧
        MovesFromZero job name := by
  constructor
  · exact fun hcovered => ⟨hcovered.start, hcovered.distance⟩
  · rintro ⟨hstart, hdistance⟩
    refine ⟨hstart, fun limit hlimit m hm steps hmoving => ?_, hdistance⟩
    obtain ⟨command, hcommand, hstarted⟩ :=
      List.mem_filterMap.mp (List.mem_of_getLast? hm)
    have hforward := forward_startedMotion (hrates command hcommand) hstarted
    refine AxisLimit.contains_of_between (hstart limit hlimit) ?_
      (hforward.sweptUm_between hmoving).2
    have htravel := (travel_eq_iff job name).mpr hdistance
    rw [hm, Option.elim_some] at htravel
    obtain hhoming | hmove := Bool.eq_false_or_eq_true m.homing
    · have hzero : m.endUm = 0 := by simp [Motion.endUm, hhoming]
      exact hzero ▸ hstart limit hlimit
    · exact htravel ▸ contains_travel hpassed hlimit hm hmove

/-! ## Running -/

/-- A new controller that has received a part of a job. -/
structure Received (c : SimController θ) (job : List Command) (d : SimController θ) : Prop where
  now : d.now = c.now
  fault : d.latchedFault = none
  axes : d.axes = c.axes
  capacity : d.queueCapacity = c.queueCapacity
  queue : d.queue = (job.filter (· ≠ .heartbeat)).map fun command => ⟨c.now, command⟩

theorem Received.accept {c d : SimController θ} (h : Received c job d) {command : Command}
    (hroom : ((job ++ [command]).filter (· ≠ .heartbeat)).length ≤ c.queueCapacity) :
    Received c (job ++ [command]) (d.accept ⟨none, command⟩) := by
  by_cases hheartbeat : command = .heartbeat
  · have hadmission : d.admission ⟨none, command⟩ = .ok none := by
      simp [SimController.admission, h.fault, hheartbeat]
    simp only [SimController.accept, hadmission]
    refine ⟨h.now, h.fault, h.axes, h.capacity, ?_⟩
    simpa [hheartbeat] using h.queue
  · have hfilter : (job ++ [command]).filter (· ≠ .heartbeat) =
        job.filter (· ≠ .heartbeat) ++ [command] := by simp [hheartbeat]
    have hlength : d.queue.length < d.queueCapacity := by
      rw [hfilter, List.length_append, List.length_singleton] at hroom
      rw [h.queue, h.capacity, List.length_map]
      exact hroom
    have hadmission : d.admission ⟨none, command⟩ = .ok (some ⟨d.now, command⟩) :=
      SimController.admission_eq_some.mpr ⟨h.fault, hheartbeat, nofun, hlength, rfl⟩
    have hlast : ∀ other ∈ (d.record [.accepted d.now (summarize command)]).queue,
        dueTick other ≤ dueTick ⟨d.now, command⟩ := by
      intro other hother
      rw [SimController.record, h.queue] at hother
      obtain ⟨_, -, rfl⟩ := List.mem_map.mp hother
      simp [dueTick, h.now]
    simp only [SimController.accept, hadmission]
    refine ⟨h.now, h.fault, h.axes, h.capacity, ?_⟩
    rw [SimController.enqueue_queue, Agenda.insertByDue_eq_append hlast, hfilter]
    simp [SimController.record, h.queue, h.now]

theorem received_run [F64 θ] {rig : Rig θ} {c : SimController θ} {before : List Command}
    (h : Received c before rig.controller) {frames : List (List UInt8)}
    (hsent : frames.map wireCommand = job.map fun command => some ⟨none, command⟩)
    (hroom : ((before ++ job).filter (· ≠ .heartbeat)).length ≤ c.queueCapacity) :
    Received c (before ++ job) ((rigMachine θ).run rig (frames.map .frame)).1.controller ∧
      ((rigMachine θ).run rig (frames.map .frame)).1.transport = rig.transport := by
  induction frames generalizing rig before job with
  | nil =>
    obtain rfl : job = [] := List.map_eq_nil_iff.mp hsent.symm
    exact ⟨by simpa using h, rfl⟩
  | cons frame frames ih =>
    cases job with
    | nil => cases hsent
    | cons command job =>
      obtain ⟨hcommand, hlater⟩ := List.cons.inj hsent
      rw [List.append_cons] at hroom ⊢
      have hstep : ((rigMachine θ).step rig (.frame frame)).1 =
          { rig with controller := rig.controller.accept ⟨none, command⟩ } := by
        simp only [rigMachine, SimController.processWireFrame_snd, hcommand, Option.elim_some]
      have hnext : Received c (before ++ [command])
          ((rigMachine θ).step rig (.frame frame)).1.controller := by
        rw [hstep]
        refine h.accept (le_trans ?_ hroom)
        exact ((List.sublist_append_left _ _).filter _).length_le
      obtain ⟨hreceived, htransport⟩ := ih hnext hlater hroom
      refine ⟨hreceived, htransport.trans ?_⟩
      rw [hstep]

/-- Of an axis, after a number of steps that is not zero: where the last motion has taken it. -/
def Tracks (m? : Option Motion) (steps : ℕ) (a : AxisState) : Prop :=
  match m? with
  | none => a.positionUm = 0 ∧ a.motion = none
  | some m => a.Follows m steps

/-- The rig after a number of steps that is not zero. -/
structure Running (initial : SimController θ) (job : List Command) (steps : ℕ) (rig : Rig θ) :
    Prop where
  queue : rig.controller.queue = []
  inFlight : rig.transport.inFlight = []
  axes : ∀ name, ∃ f : AxisState → AxisState,
    rig.controller.axis? name = (initial.axis? name).map f ∧
      ∀ a, initial.axis? name = some a → Tracks (lastMotion name job) steps (f a)

theorem tracks_advance {m? : Option Motion} {steps : ℕ} {a : AxisState} (h : Tracks m? steps a)
    (now : Tick) : Tracks m? (steps + 1) (a.advance now).1 := by
  cases m? with
  | none => simpa [Tracks, AxisState.advance, h.2] using h.1
  | some m => exact follows_advance h now

/-- A step without arrivals starts what is queued and due, and advances the axes. -/
theorem step_of_inFlight_eq_nil [F64 θ] {rig : Rig θ} (h : rig.transport.inFlight = []) :
    rig.received = { rig.controller with now := rig.controller.now + stepTicks } ∧
      ((rigMachine θ).step rig .step).1.transport.inFlight = [] ∧
      ((rigMachine θ).step rig .step).1.controller.queue =
        rig.controller.queue.dropWhile (·.executeAt ≤ rig.controller.now + stepTicks) ∧
      ∀ name, ((rigMachine θ).step rig .step).1.controller.axis? name =
        (rig.controller.axis? name).map fun a =>
          ((a.startLast name rig.received.due).advance rig.received.now).1 := by
  obtain ⟨harrived, hinFlight⟩ := SimTransport.deliverDue_nil h (rig.controller.now + stepTicks)
  have hreceived : rig.received =
      { rig.controller with now := rig.controller.now + stepTicks } := by
    rw [Rig.received, Rig.arrived, harrived]
    rfl
  have hstep : ((rigMachine θ).step rig .step).1.controller = rig.received.execute := rfl
  obtain ⟨_, _, hexecute, -⟩ := rig.received.execute_eq
  refine ⟨hreceived, hinFlight, ?_, fun name => ?_⟩
  · rw [hstep, hexecute, hreceived]
  · rw [hstep, axis?_execute]
    simp only [SimController.axis?, hreceived]

theorem running_step [F64 θ] {initial : SimController θ} {rig : Rig θ} {steps : ℕ}
    (h : Running initial job steps rig) :
    Running initial job (steps + 1) ((rigMachine θ).step rig .step).1 := by
  obtain ⟨hreceived, hinFlight, hqueue, haxes⟩ := step_of_inFlight_eq_nil h.inFlight
  have hdue : rig.received.due = [] := by
    rw [SimController.due, hreceived, h.queue, List.takeWhile_nil]
  refine ⟨by rw [hqueue, h.queue, List.dropWhile_nil], hinFlight, fun name => ?_⟩
  obtain ⟨f, haxis, htracks⟩ := h.axes name
  refine ⟨_, by rw [haxes, haxis, Option.map_map], fun a ha => ?_⟩
  rw [hdue]
  exact tracks_advance (htracks a ha) _

/-- The first step starts the last motion of every axis. -/
theorem running_first [F64 θ] {initial : SimController θ} {rig : Rig θ}
    (h : Received initial job rig.controller) (hnow : initial.now.toNat + 1000 < 2 ^ 64)
    (hidle : ∀ a ∈ initial.axes, a.positionUm = 0 ∧ a.motion = none)
    (hinFlight : rig.transport.inFlight = []) :
    Running initial job 1 ((rigMachine θ).step rig .step).1 := by
  obtain ⟨hreceived, hinFlight, hqueue, haxes⟩ := step_of_inFlight_eq_nil hinFlight
  have hdue : ∀ queued ∈ rig.controller.queue,
      decide (queued.executeAt ≤ rig.controller.now + stepTicks) = true := by
    intro queued hqueued
    rw [h.queue] at hqueued
    obtain ⟨_, -, rfl⟩ := List.mem_map.mp hqueued
    have hticks : stepTicks.toNat = 1000 := rfl
    rw [decide_eq_true_iff, h.now, UInt64.le_iff_toNat_le, UInt64.toNat_add, hticks,
      Nat.mod_eq_of_lt hnow]
    exact Nat.le_add_right _ _
  have htaken : rig.received.due.map (·.command) = job.filter (· ≠ .heartbeat) := by
    rw [SimController.due, hreceived, List.takeWhile_eq_self_iff.mpr hdue, h.queue, List.map_map]
    exact List.map_id _
  refine ⟨by rw [hqueue, List.dropWhile_eq_nil_iff.mpr hdue], hinFlight, fun name => ?_⟩
  refine ⟨_, by rw [haxes, SimController.axis?, h.axes]; rfl, fun a ha => ?_⟩
  obtain ⟨hposition, hmotion⟩ := hidle a (List.mem_of_find?_eq_some ha)
  have hlast : a.startLast name rig.received.due = (lastMotion name job).elim a a.begin := by
    have hheartbeat : (fun command : Command =>
        if decide (command ≠ .heartbeat) = true then startedMotion name command else none) =
          startedMotion name := by
      funext command
      cases command <;> simp [startedMotion]
    rw [AxisState.startLast, htaken, lastMotion, List.filterMap_filter, hheartbeat]
  have hstart : Tracks (lastMotion name job) 0 ((lastMotion name job).elim a a.begin) := by
    cases lastMotion name job with
    | none => exact ⟨hposition, hmotion⟩
    | some m =>
      refine .moving m.inProgress_zero ?_ ?_
      · rw [m.sweptUm_zero]
        exact hposition
      · rw [m.after_zero]
        rfl
  rw [hlast]
  exact tracks_advance hstart _

/-- Where an axis is after a number of steps, if its last motion started with the first. -/
def Reaches (m? : Option Motion) (steps : ℕ) (positionUm : Int64) : Prop :=
  match m? with
  | none => positionUm = 0
  | some m => (m.InProgress steps ∧ positionUm = m.sweptUm steps) ∨
      (¬ m.InProgress steps ∧ positionUm = m.endUm)

theorem Tracks.reaches {m? : Option Motion} {steps : ℕ} {a : AxisState}
    (h : Tracks m? steps a) : Reaches m? steps a.positionUm := by
  cases m? with
  | none => exact h.1
  | some m =>
    cases h with
    | moving hmoving hposition => exact .inl ⟨hmoving, hposition⟩
    | done hdone hposition => exact .inr ⟨hdone, hposition⟩

theorem Reaches.eq_zero {m? : Option Motion} {positionUm : Int64} (h : Reaches m? 0 positionUm) :
    positionUm = 0 := by
  cases m? with
  | none => exact h
  | some m =>
    obtain ⟨-, heq⟩ | ⟨hdone, -⟩ := h
    · exact heq.trans m.sweptUm_zero
    · exact absurd m.inProgress_zero hdone

/-- An axis stays within its limit while the last motion is on its way and when it has ended. -/
theorem AxisCovered.contains {auditor : ToolpathAuditor}
    (h : AxisCovered auditor.limits job name) (hpassed : (auditor.audit job).passed)
    {limit : AxisLimit} (hlimit : auditor.limits.axes[name]? = some limit) {steps : ℕ}
    {positionUm : Int64} (hreaches : Reaches (lastMotion name job) steps positionUm) :
    limit.Contains positionUm := by
  cases hm : lastMotion name job with
  | none =>
    rw [hm] at hreaches
    exact hreaches ▸ h.start limit hlimit
  | some m =>
    rw [hm] at hreaches
    obtain ⟨hmoving, heq⟩ | ⟨-, heq⟩ := hreaches
    · exact heq ▸ h.way limit hlimit m hm steps hmoving
    · have htravel := (travel_eq_iff job name).mpr h.distance
      rw [hm, Option.elim_some] at htravel
      obtain hhoming | hmove := Bool.eq_false_or_eq_true m.homing
      · have hzero : m.endUm = 0 := by simp [Motion.endUm, hhoming]
        exact (heq.trans hzero) ▸ h.start limit hlimit
      · exact (heq.trans htravel.symm) ▸ contains_travel hpassed hlimit hm hmove

/-- The positions that an axis has at all ticks cover it. -/
theorem axisCovered_of_reaches {limits : AuditLimits}
    (hpositions : ∀ steps, ∃ positionUm, Reaches (lastMotion name job) steps positionUm ∧
      ∀ limit, limits.axes[name]? = some limit → limit.Contains positionUm)
    (hends : travel name job = (lastMotion name job).elim 0 Motion.endUm) :
    AxisCovered limits job name := by
  refine ⟨fun limit hlimit => ?_, fun limit hlimit m hm steps hmoving => ?_,
    (travel_eq_iff job name).mp hends⟩
  · obtain ⟨positionUm, hreaches, hinside⟩ := hpositions 0
    exact hreaches.eq_zero ▸ hinside limit hlimit
  · obtain ⟨positionUm, hreaches, hinside⟩ := hpositions steps
    rw [hm] at hreaches
    obtain ⟨-, heq⟩ | ⟨hended, -⟩ := hreaches
    · exact heq ▸ hinside limit hlimit
    · exact absurd hmoving hended

/-- The axes that a new controller knows by a name. -/
theorem axis?_new [F64 θ] (ambientMilliC : Int64) (heaters : List HeaterCfg)
    (axes : List AxisCfg) (name : String) :
    (∃ a, (SimController.new ambientMilliC heaters axes : SimController θ).axis? name = some a) ↔
      ∃ axis ∈ axes, axis.name = name := by
  simp [SimController.axis?, SimController.new, ← Option.isSome_iff_exists]

section AfterJob

variable [F64 θ] (ambientMilliC : Int64) (heaters : List HeaterCfg) {axes : List AxisCfg}
  (cfg : TransportConfig) {frames : List (List UInt8)}

theorem received_afterJob (axes : List AxisCfg)
    (hsent : frames.map wireCommand = job.map fun command => some ⟨none, command⟩)
    (hroom : (job.filter (· ≠ .heartbeat)).length ≤ 16) :
    Received (.new ambientMilliC heaters axes) job
        ((rigMachine θ).run (.new ambientMilliC heaters axes cfg)
          (frames.map .frame)).1.controller ∧
      ((rigMachine θ).run (.new ambientMilliC heaters axes cfg)
        (frames.map .frame)).1.transport = .new cfg :=
  have hnew : Received (.new ambientMilliC heaters axes) []
      (Rig.new ambientMilliC heaters axes cfg : Rig θ).controller := ⟨rfl, rfl, rfl, rfl, rfl⟩
  received_run hnew hsent hroom

theorem running_afterJob (hstart : ∀ cfg ∈ axes, cfg.startPositionUm = 0)
    (hsent : frames.map wireCommand = job.map fun command => some ⟨none, command⟩)
    (hroom : (job.filter (· ≠ .heartbeat)).length ≤ 16) (steps : ℕ) :
    Running (.new ambientMilliC heaters axes) job (steps + 1)
      ((rigMachine θ).run (.new ambientMilliC heaters axes cfg)
        (frames.map .frame ++ List.replicate (steps + 1) .step)).1 := by
  have hidle : ∀ a ∈ (SimController.new ambientMilliC heaters axes : SimController θ).axes,
      a.positionUm = 0 ∧ a.motion = none := by
    intro a ha
    obtain ⟨axis, haxis, rfl⟩ := List.mem_map.mp ha
    exact ⟨hstart axis haxis, rfl⟩
  obtain ⟨hreceived, htransport⟩ :=
    received_afterJob (θ := θ) ambientMilliC heaters cfg axes hsent hroom
  induction steps with
  | zero =>
    rw [Machine.run_append]
    have hnow : (0 : Tick).toNat + 1000 < 2 ^ 64 := by decide
    exact running_first hreceived hnow hidle (by rw [htransport]; rfl)
  | succ steps ih =>
    rw [List.replicate_succ', ← List.append_assoc, Machine.run_append]
    exact running_step ih

/-- Every axis at any tick of the run of a job. -/
theorem reaches_afterJob (hstart : ∀ cfg ∈ axes, cfg.startPositionUm = 0)
    (hsent : frames.map wireCommand = job.map fun command => some ⟨none, command⟩)
    (hroom : (job.filter (· ≠ .heartbeat)).length ≤ 16) (steps : ℕ) (name : String) :
    ∃ f : AxisState → AxisState,
      (afterJob (.new ambientMilliC heaters axes cfg : Rig θ) frames steps).axis? name =
        ((SimController.new ambientMilliC heaters axes : SimController θ).axis? name).map f ∧
      ∀ a, (SimController.new ambientMilliC heaters axes : SimController θ).axis? name = some a →
        Reaches (lastMotion name job) steps (f a).positionUm := by
  cases steps with
  | zero =>
    obtain ⟨hreceived, -⟩ :=
      received_afterJob (θ := θ) ambientMilliC heaters cfg axes hsent hroom
    refine ⟨id, ?_, fun a ha => ?_⟩
    · simp only [afterJob, List.replicate_zero, List.append_nil, Option.map_id, id]
      rw [SimController.axis?, hreceived.axes]
      rfl
    · obtain ⟨axis, haxis, rfl⟩ := List.mem_map.mp (List.mem_of_find?_eq_some ha)
      have hposition : axis.startPositionUm = 0 := hstart axis haxis
      cases hm : lastMotion name job with
      | none => exact hposition
      | some m => exact .inl ⟨m.inProgress_zero, hposition.trans m.sweptUm_zero.symm⟩
  | succ steps =>
    obtain ⟨f, haxis, htracks⟩ :=
      (running_afterJob (θ := θ) ambientMilliC heaters cfg hstart hsent hroom steps).axes name
    exact ⟨f, haxis, fun a ha => (htracks a ha).reaches⟩

/-- When the run is complete, every axis is where its last motion ends. -/
theorem idle_afterJob (hstart : ∀ cfg ∈ axes, cfg.startPositionUm = 0)
    (hsent : frames.map wireCommand = job.map fun command => some ⟨none, command⟩)
    (hroom : (job.filter (· ≠ .heartbeat)).length ≤ 16) {steps : ℕ}
    (hdone : Idle (afterJob (.new ambientMilliC heaters axes cfg : Rig θ) frames steps))
    {a : AxisState}
    (ha : (afterJob (.new ambientMilliC heaters axes cfg : Rig θ) frames steps).axis? name =
      some a) : a.positionUm = (lastMotion name job).elim 0 Motion.endUm := by
  have hmem : a ∈ (afterJob (.new ambientMilliC heaters axes cfg : Rig θ) frames steps).axes :=
    List.mem_of_find?_eq_some ha
  have hmotion := hdone.motions a hmem
  cases steps with
  | zero =>
    obtain ⟨f, haxis, hreaches⟩ :=
      reaches_afterJob (θ := θ) ambientMilliC heaters cfg hstart hsent hroom 0 name
    obtain ⟨hreceived, -⟩ :=
      received_afterJob (θ := θ) ambientMilliC heaters cfg axes hsent hroom
    have hqueue := hdone.queue
    simp only [afterJob, List.replicate_zero, List.append_nil] at hqueue
    rw [hreceived.queue, List.map_eq_nil_iff, List.filter_eq_nil_iff] at hqueue
    have hnone : lastMotion name job = none := by
      rw [lastMotion, List.getLast?_eq_none_iff, List.filterMap_eq_nil_iff]
      intro command hcommand
      obtain rfl : command = .heartbeat := by simpa using hqueue command hcommand
      rfl
    rw [haxis, Option.map_eq_some_iff] at ha
    obtain ⟨b, hb, rfl⟩ := ha
    have hposition := hreaches b hb
    rw [hnone] at hposition ⊢
    exact hposition
  | succ steps =>
    obtain ⟨f, haxis, htracks⟩ :=
      (running_afterJob (θ := θ) ambientMilliC heaters cfg hstart hsent hroom steps).axes name
    rw [afterJob, haxis, Option.map_eq_some_iff] at ha
    obtain ⟨b, hb, rfl⟩ := ha
    have hfollows := htracks b hb
    cases hm : lastMotion name job with
    | none =>
      rw [hm] at hfollows
      exact hfollows.1
    | some m =>
      rw [hm] at hfollows
      cases hfollows with
      | moving _ _ hmoving => rw [hmotion] at hmoving; cases hmoving
      | done _ hposition => exact hposition

end AfterJob

/-- A job that passes its audit stays within the limits and ends where the audit says, exactly
when this is so for the last motion of every axis from position 0. -/
theorem audit_sound_iff [F64 θ] (auditor : ToolpathAuditor) (ambientMilliC : Int64)
    (heaters : List HeaterCfg) {axes : List AxisCfg} (cfg : TransportConfig)
    {frames : List (List UInt8)} {steps : ℕ} (hpassed : (auditor.audit job).passed)
    (hstart : ∀ cfg ∈ axes, cfg.startPositionUm = 0)
    (hsent : frames.map wireCommand = job.map fun command => some ⟨none, command⟩)
    (hroom : (job.filter (· ≠ .heartbeat)).length ≤ 16)
    (hdone : Idle (afterJob (.new ambientMilliC heaters axes cfg : Rig θ) frames steps)) :
    ((∀ tick, WithinLimits auditor.limits
        (afterJob (.new ambientMilliC heaters axes cfg : Rig θ) frames tick)) ∧
      AtAudited auditor job
        (afterJob (.new ambientMilliC heaters axes cfg : Rig θ) frames steps)) ↔
      ∀ axis ∈ axes, AxisCovered auditor.limits job axis.name := by
  have hreaches (tick : ℕ) (name : String) :=
    reaches_afterJob (θ := θ) ambientMilliC heaters cfg hstart hsent hroom tick name
  have hends : ∀ name a,
      (afterJob (.new ambientMilliC heaters axes cfg : Rig θ) frames steps).axis? name = some a →
        a.positionUm = (lastMotion name job).elim 0 Motion.endUm := fun name a =>
    idle_afterJob ambientMilliC heaters cfg hstart hsent hroom hdone
  constructor
  · intro ⟨hwithin, haudited⟩ axis haxis
    obtain ⟨b, hb⟩ := (axis?_new (θ := θ) ambientMilliC heaters axes axis.name).mpr
      ⟨axis, haxis, rfl⟩
    have hposition (tick : ℕ) : ∃ a,
        (afterJob (.new ambientMilliC heaters axes cfg : Rig θ) frames tick).axis? axis.name =
            some a ∧
          Reaches (lastMotion axis.name job) tick a.positionUm := by
      obtain ⟨f, hat, hfollows⟩ := hreaches tick axis.name
      exact ⟨f b, by rw [hat, hb]; rfl, hfollows b hb⟩
    refine axisCovered_of_reaches (fun tick => ?_) ?_
    · obtain ⟨a, ha, hreach⟩ := hposition tick
      exact ⟨a.positionUm, hreach, fun limit hlimit => hwithin tick axis.name limit a hlimit ha⟩
    · obtain ⟨a, ha, -⟩ := hposition steps
      have heq := haudited axis.name a ha
      rw [hends axis.name a ha, auditor.positions_eq_travel] at heq
      exact heq.symm
  · intro hcovered
    have hcovers (tick : ℕ) {name : String} {a : AxisState} (ha : (afterJob
        (.new ambientMilliC heaters axes cfg : Rig θ) frames tick).axis? name = some a) :
        Reaches (lastMotion name job) tick a.positionUm ∧
          AxisCovered auditor.limits job name := by
      obtain ⟨f, hat, hfollows⟩ := hreaches tick name
      rw [hat, Option.map_eq_some_iff] at ha
      obtain ⟨b, hb, rfl⟩ := ha
      obtain ⟨axis, haxis, rfl⟩ := (axis?_new (θ := θ) ambientMilliC heaters axes name).mp ⟨b, hb⟩
      exact ⟨hfollows b hb, hcovered axis haxis⟩
    constructor
    · intro tick name limit a hlimit ha
      obtain ⟨hreach, hcover⟩ := hcovers tick ha
      exact hcover.contains hpassed hlimit hreach
    · intro name a ha
      obtain ⟨-, hcover⟩ := hcovers steps ha
      rw [hends name a ha, auditor.positions_eq_travel]
      exact ((travel_eq_iff job name).mpr hcover.distance).symm

/-- Immediate commands as wire frames. -/
def immediateFrames (job : List Command) : List (List UInt8) :=
  job.map fun command => CommandFrame.bytes ⟨0, ⟨none, command⟩⟩

/-- A machine with two axes, one of which goes to both sides of its home position. -/
def twoAxisAuditor : ToolpathAuditor := .new
  { axes := ((∅ : Std.TreeMap String AxisLimit).insert "x" ⟨0, 100⟩).insert "y" ⟨-50, 50⟩
    maxFeedRateUmS := 30000
    heaterCeilingsMilliC := ∅ }

/-- A job in which the earlier motions of each axis lead back to its home position. -/
def twoAxisJob : List Command :=
  [.move "x" 30 20000, .move "x" (-30) 20000, .move "y" 10 20000, .home "y" 20000,
    .move "y" (-20) 20000, .heartbeat, .move "x" 40 20000]

/-- The axes end at 40 um and at -20 um. -/
theorem audit_sound_two_axes :
    (∀ tick, WithinLimits twoAxisAuditor.limits
        (afterJob (.new 25000 [] [⟨"x", 0⟩, ⟨"y", 0⟩] .default : Rig ℤ)
          (immediateFrames twoAxisJob) tick)) ∧
      AtAudited twoAxisAuditor twoAxisJob
        (afterJob (.new 25000 [] [⟨"x", 0⟩, ⟨"y", 0⟩] .default : Rig ℤ)
          (immediateFrames twoAxisJob) 2) := by
  have hpassed : (twoAxisAuditor.audit twoAxisJob).passed := by decide +kernel
  have hrates : ∀ command ∈ twoAxisJob, RateFits command := by
    simp [twoAxisJob, RateFits]
  have hcovered (name : String)
      (hzero : (twoAxisAuditor.limits.axes[name]?).all (AxisLimit.Contains · 0))
      (htravel : travel name twoAxisJob = (lastMotion name twoAxisJob).elim 0 Motion.endUm) :
      AxisCovered twoAxisAuditor.limits twoAxisJob name := by
    refine (axisCovered_iff_of_rateFits hpassed hrates).mpr
      ⟨fun limit hlimit => ?_, (travel_eq_iff twoAxisJob name).mp htravel⟩
    simpa [hlimit] using hzero
  refine (audit_sound_iff twoAxisAuditor 25000 [] .default hpassed (by decide)
    (by decide +kernel) (by decide) ⟨by decide +kernel, by decide +kernel⟩).mpr ?_
  exact List.forall_mem_cons.mpr ⟨hcovered "x" (by decide +kernel) (by decide +kernel),
    List.forall_mem_singleton.mpr (hcovered "y" (by decide +kernel) (by decide +kernel))⟩

/-- A machine with one axis, which may be between 0 and 100 um. -/
def oneAxisAuditor : ToolpathAuditor := .new
  { axes := (∅ : Std.TreeMap String AxisLimit).insert "x" ⟨0, 100⟩
    maxFeedRateUmS := 0
    heaterCeilingsMilliC := ∅ }

/-- The second of two moves replaces the first: the axis ends at -50 um, the audit at 50 um. -/
theorem audited_job_leaves_limits :
    (oneAxisAuditor.audit [.move "x" 100 200000, .move "x" (-50) 200000]).passed ∧
      Idle (afterJob (.new 25000 [] [⟨"x", 0⟩] .default : Rig ℤ)
        (immediateFrames [.move "x" 100 200000, .move "x" (-50) 200000]) 1) ∧
      ¬ (∀ tick, WithinLimits oneAxisAuditor.limits
        (afterJob (.new 25000 [] [⟨"x", 0⟩] .default : Rig ℤ)
          (immediateFrames [.move "x" 100 200000, .move "x" (-50) 200000]) tick)) ∧
      ¬ AtAudited oneAxisAuditor [.move "x" 100 200000, .move "x" (-50) 200000]
        (afterJob (.new 25000 [] [⟨"x", 0⟩] .default : Rig ℤ)
          (immediateFrames [.move "x" 100 200000, .move "x" (-50) 200000]) 1) := by
  have haxis : (afterJob (.new 25000 [] [⟨"x", 0⟩] .default : Rig ℤ)
      (immediateFrames [.move "x" 100 200000, .move "x" (-50) 200000]) 1).axis? "x" =
        some ⟨⟨"x", 0⟩, -50, none⟩ := by decide +kernel
  have hlimit : oneAxisAuditor.limits.axes["x"]? = some ⟨0, 100⟩ := by decide +kernel
  refine ⟨by decide +kernel, ⟨by decide +kernel, by decide +kernel⟩, fun hwithin => ?_,
    fun haudited => ?_⟩
  · exact absurd (hwithin 1 "x" _ _ hlimit haxis) (by decide)
  · exact absurd (haudited "x" _ haxis) (by decide +kernel)

end Dryer.Toolpath
