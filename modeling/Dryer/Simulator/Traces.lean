import Dryer.Simulator.CommandQueue

/-!
# Traces

The trace of a controller is a log. What is in it stays, and its events are in the order of their
ticks. The comparison of two traces finds the first event that differs.
-/
namespace Dryer.Simulator
open Library ControlProtocol

/-- Tick-stamped event log. -/
abbrev Trace := List Event

def Event.«at» : Event → Tick
  | .accepted tick _ | .rejected tick _ _ | .executed tick _ | .tempSample tick _ _
  | .endstop tick _ | .safeState tick _ _ _ | .faultLatched tick _ | .reset tick => tick

def Chronological (trace : Trace) : Prop := trace.Pairwise fun a b => a.at ≤ b.at

instance (trace : Trace) : Decidable (Chronological trace) :=
  inferInstanceAs (Decidable (List.Pairwise _ _))

/-! ## The log of a run -/

/-- A controller only adds events of its own tick to its trace. -/
structure Logs {θ : Type} (c d : SimController θ) : Prop where
  now : d.now = c.now
  trace : ∃ events, d.trace = c.trace ++ events ∧ ∀ e ∈ events, e.at = c.now

namespace Logs

variable {θ : Type} {c d : SimController θ}

theorem refl (c : SimController θ) : Logs c c :=
  ⟨rfl, [], (List.append_nil _).symm, List.forall_mem_nil _⟩

theorem trans {e : SimController θ} (h : Logs c d) (h' : Logs d e) : Logs c e := by
  obtain ⟨earlier, htrace, hearlier⟩ := h.trace
  obtain ⟨later, htrace', hlater⟩ := h'.trace
  refine ⟨h'.now.trans h.now, earlier ++ later, ?_, List.forall_mem_append.mpr ⟨hearlier, ?_⟩⟩
  · rw [htrace', htrace, List.append_assoc]
  · exact h.now ▸ hlater

theorem accept (c : SimController θ) (incoming : CommandEnvelope) :
    Logs c (c.accept incoming) := by
  have h := c.accepts_accept incoming
  generalize c.accept incoming = d, c.admitted incoming = m at h ⊢
  cases h with
  | reject what reason => exact ⟨rfl, _, rfl, List.forall_mem_singleton.mpr rfl⟩
  | heartbeat => exact ⟨rfl, [], (List.append_nil _).symm, List.forall_mem_nil _⟩
  | queue what queued => exact ⟨rfl, _, rfl, List.forall_mem_singleton.mpr rfl⟩

theorem receive (c : SimController θ) (arrived : List CommandEnvelope) :
    Logs { c with now := c.now + stepTicks } (c.receive arrived) :=
  @SimController.foldl_accept θ (fun d _ => Logs { c with now := c.now + stepTicks } d)
    (fun d _ incoming h => h.trans (accept d incoming)) _ [] (refl _) arrived

theorem start (c : SimController θ) (command : Command) : Logs c (c.start command) := by
  cases command with
  | heartbeat => exact refl c
  | setHeaterTarget heater targetMilliC =>
    simp only [SimController.start]
    split
    · exact refl c
    · exact ⟨rfl, _, rfl, List.forall_mem_singleton.mpr rfl⟩
  | home axis rateUmS => exact ⟨rfl, [], (List.append_nil _).symm, List.forall_mem_nil _⟩
  | move axis distanceUm rateUmS =>
    exact ⟨rfl, [], (List.append_nil _).symm, List.forall_mem_nil _⟩

theorem startFront (c : SimController θ) (queue : List QueuedCommand) :
    Logs c (c.startFront queue) := by
  induction queue generalizing c with
  | nil => exact ⟨rfl, [], (List.append_nil _).symm, List.forall_mem_nil _⟩
  | cons queued queue ih =>
    rw [SimController.startFront]
    split
    · exact (start c queued.command).trans (ih _)
    · exact ⟨rfl, [], (List.append_nil _).symm, List.forall_mem_nil _⟩

theorem stepEvents_at [F64 θ] (c : SimController θ) : ∀ e ∈ c.stepEvents, e.at = c.now := by
  refine List.forall_mem_append.mpr ⟨List.forall_mem_append.mpr ⟨?_, ?_⟩, ?_⟩
  · intro e he
    obtain ⟨h, -, he⟩ := List.mem_flatMap.mp he
    unfold HeaterState.enforce at he
    grind [Event.at]
  · intro e he
    obtain ⟨a, -, he⟩ := List.mem_flatMap.mp he
    unfold AxisState.advance at he
    grind [Event.at]
  · intro e he
    grind [Event.at]

theorem reset (c : SimController θ) : Logs c c.reset := by
  refine ⟨rfl, _, by rw [SimController.reset, List.append_assoc, List.append_assoc], ?_⟩
  intro e he
  grind [Event.at]

theorem execute [F64 θ] (c : SimController θ) : Logs c c.execute := by
  refine (startFront c c.queue).trans ⟨?_, c.startDue.stepEvents, ?_, stepEvents_at c.startDue⟩
  all_goals
    simp only [SimController.execute, SimController.sampleTemperatures, SimController.stepEvents]
    split <;>
      simp_all [SimController.startDue, SimController.enforceSafety, SimController.driveHeaters,
        SimController.advanceAxes]

end Logs

variable {θ : Type}

/-- A log of ticks up to now, which starts with an earlier one and continues no earlier than
that ended. -/
structure Continues (c d : SimController θ) : Prop where
  now : c.now ≤ d.now
  trace : ∃ events, d.trace = c.trace ++ events ∧ ∀ e ∈ events, c.now ≤ e.at ∧ e.at ≤ d.now
  chronological : Chronological c.trace → (∀ e ∈ c.trace, e.at ≤ c.now) → Chronological d.trace

theorem Logs.continues {c d : SimController θ} (h : Logs c d) : Continues c d := by
  obtain ⟨events, htrace, hevents⟩ := h.trace
  refine ⟨h.now ▸ UInt64.le_refl _, ⟨events, htrace, fun e he => ?_⟩, fun hbefore hpast => ?_⟩
  · rw [hevents e he, h.now]
    exact ⟨UInt64.le_refl _, UInt64.le_refl _⟩
  · rw [htrace]
    refine List.pairwise_append.mpr ⟨hbefore, ?_, fun a ha b hb => hevents b hb ▸ hpast a ha⟩
    apply List.pairwise_of_forall_mem_list
    intro a ha b hb
    rw [hevents a ha, hevents b hb]
    exact UInt64.le_refl _

theorem Continues.trans {c d e : SimController θ} (h : Continues c d) (h' : Continues d e) :
    Continues c e := by
  obtain ⟨earlier, htrace, hearlier⟩ := h.trace
  obtain ⟨later, htrace', hlater⟩ := h'.trace
  refine ⟨UInt64.le_trans h.now h'.now, ⟨earlier ++ later, ?_, ?_⟩, fun hbefore hpast => ?_⟩
  · rw [htrace', htrace, List.append_assoc]
  · refine List.forall_mem_append.mpr ⟨fun x hx => ?_, fun x hx => ?_⟩
    · exact ⟨(hearlier x hx).1, UInt64.le_trans (hearlier x hx).2 h'.now⟩
    · exact ⟨UInt64.le_trans h.now (hlater x hx).1, (hlater x hx).2⟩
  · refine h'.chronological (h.chronological hbefore hpast) ?_
    rw [htrace]
    exact List.forall_mem_append.mpr ⟨fun x hx => UInt64.le_trans (hpast x hx) h.now,
      fun x hx => (hearlier x hx).2⟩

/-- One event continues the log. -/
theorem continues_step [F64 θ] (rig : Rig θ) (event : RigEvent) (hfits : TicksFit rig event) :
    Continues rig.controller ((rigMachine θ).step rig event).1.controller := by
  have hmoves := rigMoves_step rig event
  generalize ((rigMachine θ).step rig event).1.controller = d,
    ((rigMachine θ).step rig event).2 = marks at hmoves
  cases hmoves with
  | stay event => exact (Logs.refl _).continues
  | accept bytes incoming => exact (Logs.accept _ incoming).continues
  | window window => exact Logs.continues ⟨rfl, [], (List.append_nil _).symm, List.forall_mem_nil _⟩
  | reset => exact (Logs.reset _).continues
  | step arrived =>
    have hlogs := (Logs.receive rig.controller arrived).trans (Logs.execute _)
    have hnow : rig.controller.now ≤ rig.controller.now + stepTicks := by
      have hroom := hfits rfl
      rw [UInt64.le_iff_toNat_le, UInt64.toNat_add, Nat.mod_eq_of_lt hroom]
      exact Nat.le_add_right _ _
    have htick : Continues rig.controller
        { rig.controller with now := rig.controller.now + stepTicks } :=
      ⟨hnow, ⟨[], (List.append_nil _).symm, List.forall_mem_nil _⟩, fun hbefore _ => hbefore⟩
    exact htick.trans hlogs.continues

theorem continues_run [F64 θ] {rig : Rig θ} {events : List RigEvent}
    (hfits : (rigMachine θ).Along TicksFit rig events) :
    Continues rig.controller ((rigMachine θ).run rig events).1.controller :=
  @Machine.run_along _ _ _ (rigMachine θ) rig
    (fun reached _ => Continues rig.controller reached.controller) TicksFit
    (fun reached _ event h hevent => h.trans (continues_step reached event hevent))
    [] (Logs.refl rig.controller).continues _ hfits

/-- What a rig has logged after a run. -/
def Rig.traceAfter {θ : Type} [F64 θ] (rig : Rig θ) (events : List RigEvent) : Trace :=
  ((rigMachine θ).run rig events).1.controller.trace

/-- In every run that does not run out of ticks, the trace only grows, what an event adds is not
older than the tick before it, and the events are in the order of their ticks. -/
theorem trace_chronological [F64 θ] {rig : Rig θ} (hnew : rig.controller.trace = [])
    {earlier later : List RigEvent}
    (hfits : (rigMachine θ).Along TicksFit rig (earlier ++ later)) :
    Chronological (rig.traceAfter (earlier ++ later)) ∧
      ∃ events, rig.traceAfter (earlier ++ later) = rig.traceAfter earlier ++ events ∧
        ∀ e ∈ events, ((rigMachine θ).run rig earlier).1.controller.now ≤ e.at ∧
          e.at ≤ ((rigMachine θ).run rig (earlier ++ later)).1.controller.now := by
  have hwhole := continues_run hfits
  rw [Machine.along_append] at hfits
  have hlater := continues_run hfits.2
  refine ⟨hwhole.chronological (hnew ▸ List.Pairwise.nil) (by simp [hnew]), ?_⟩
  simp only [Rig.traceAfter, Machine.run_append]
  exact hlater.trace

/-- A move over the link, and a reset while it is in progress. -/
theorem trace_chronological_reset :
    let rig : Rig ℤ := .new 25000 [] [⟨"x", 0⟩] .default
    rig.traceAfter [.send 0 (.move "x" 1000 100000), .step] = [.accepted 1000 "move x 1000 um"] ∧
      Chronological (rig.traceAfter
        ([.send 0 (.move "x" 1000 100000), .step] ++ [.step, .reset])) := by
  intro rig
  refine ⟨by decide +kernel, (@trace_chronological ℤ _ rig rfl
    [.send 0 (.move "x" 1000 100000), .step] [.step, .reset] ?_).1⟩
  exact ⟨nofun, fun _ => by decide +kernel, fun _ => by decide +kernel, nofun, trivial⟩

end Dryer.Simulator
