import Dryer.Simulator.Rig

/-!
# The scheduled queue

The queue of the controller is an agenda. Commands are numbered in the order in which they
are accepted, and taken in the order of their execution ticks, equal ticks in the order of
their numbers.
-/
namespace Dryer.Simulator
open Library Library.Agenda ControlProtocol

/-- The tick at which a command is due. -/
def dueTick (queued : QueuedCommand) : ℕ := queued.executeAt.toNat

/-- The ticks do not run out in this event. -/
def TicksFit {θ : Type} (rig : Rig θ) (event : RigEvent) : Prop :=
  event = .step → rig.controller.now.toNat + stepTicks.toNat < 2 ^ 64

/-- The queue holds the entries that wait after the numbered marks. -/
structure Queued {θ : Type} (c : SimController θ) (marks : List QueueMark)
    (numbered : List (Mark (Entry QueuedCommand))) (waiting : List (Entry QueuedCommand)) :
    Prop where
  marks : numbered.map (Mark.map Entry.item) = marks
  queue : waiting.map Entry.item = c.queue
  history : History dueTick numbered waiting c.now.toNat
  capacity : c.queue.length ≤ c.queueCapacity
  aligned : c.now.toNat % stepTicks.toNat = 0

variable {θ : Type} {c : SimController θ} {marks : List QueueMark}

namespace SimController

theorem enqueue_queue (c : SimController θ) (queued : QueuedCommand) :
    (c.enqueue queued).queue = insertByDue dueTick queued c.queue := by
  have hlater : (fun existing : QueuedCommand => decide (queued.executeAt < existing.executeAt)) =
      fun existing => decide (dueTick queued < dueTick existing) :=
    funext fun _ => decide_eq_decide.mpr UInt64.lt_iff_toNat_lt
  rw [← insertIdx_findIdx?, enqueue, hlater]

/-- An accepted command is not due before the tick at which it is accepted. -/
theorem now_le_executeAt {incoming : CommandEnvelope} {queued : QueuedCommand}
    (h : c.admission incoming = .ok (some queued)) : c.now.toNat ≤ dueTick queued := by
  obtain ⟨-, -, hwindow, -, rfl⟩ := admission_eq_some.mp h
  cases hat : incoming.executeAt with
  | none => simp [dueTick]
  | some executeAt =>
    obtain ⟨-, hearliest, -⟩ := checkTimestamp_eq_ok.mp (hwindow executeAt hat)
    have hlt := c.now.toNat_lt
    simp only [queueStatus, UInt64.le_iff_toNat_le, U64.toNat_saturatingAdd] at hearliest
    simp only [dueTick, Option.getD_some]
    omega

end SimController

theorem queued_accept (incoming : CommandEnvelope)
    (h : ∃ numbered waiting, Queued c marks numbered waiting) :
    ∃ numbered waiting, Queued (c.accept incoming) (marks ++ c.admitted incoming) numbered
      waiting := by
  obtain ⟨numbered, waiting, h⟩ := h
  have haccepts := c.accepts_accept incoming
  generalize c.accept incoming = d, c.admitted incoming = m at haccepts ⊢
  cases haccepts with
  | reject what reason =>
    rw [List.append_nil]
    exact ⟨numbered, waiting, h.marks, h.queue, h.history, h.capacity, h.aligned⟩
  | heartbeat =>
    rw [List.append_nil]
    exact ⟨numbered, waiting, h.marks, h.queue, h.history, h.capacity, h.aligned⟩
  | queue what queued hadmission =>
    obtain ⟨-, -, -, hroom, -⟩ := SimController.admission_eq_some.mp hadmission
    refine ⟨_, _, ?_, ?_, h.history.add (SimController.now_le_executeAt hadmission), ?_, h.aligned⟩
    · rw [List.map_append, h.marks]
      rfl
    · rw [map_insertByDue, SimController.enqueue_queue, h.queue]
      rfl
    · rw [SimController.enqueue_queue, length_insertByDue]
      exact hroom

theorem queued_receive (arrived : List CommandEnvelope)
    (hfits : c.now.toNat + stepTicks.toNat < 2 ^ 64)
    (h : ∃ numbered waiting, Queued c marks numbered waiting) :
    ∃ numbered waiting, Queued (c.receive arrived)
      (marks ++ { c with now := c.now + stepTicks }.admittedAll arrived) numbered waiting := by
  refine SimController.foldl_accept
    (P := fun c marks => ∃ numbered waiting, Queued c marks numbered waiting)
    (fun c marks incoming => queued_accept incoming) ?_ arrived
  obtain ⟨numbered, waiting, h⟩ := h
  have hnow : (c.now + stepTicks).toNat = c.now.toNat + stepTicks.toNat := by
    rw [UInt64.toNat_add, Nat.mod_eq_of_lt hfits]
  have haligned := h.aligned
  refine ⟨numbered, waiting, h.marks, h.queue, ?_, h.capacity, ?_⟩
  · rw [hnow]
    exact h.history.advance (Nat.le_add_right _ _)
  · rw [hnow, Nat.add_mod_right]
    exact h.aligned

theorem queued_execute [F64 θ] (h : ∃ numbered waiting, Queued c marks numbered waiting) :
    ∃ numbered waiting, Queued c.execute (marks ++ [.served c.now.toNat c.due]) numbered
      waiting := by
  obtain ⟨numbered, waiting, h⟩ := h
  obtain ⟨events, next, hexecute, -⟩ := c.execute_eq
  have hdue : (fun queued : QueuedCommand => decide (queued.executeAt ≤ c.now)) =
      fun queued => decide (dueTick queued ≤ c.now.toNat) :=
    funext fun _ => decide_eq_decide.mpr UInt64.le_iff_toNat_le
  rw [hexecute, SimController.due, hdue, ← h.queue]
  refine ⟨_, _, ?_, ?_, h.history.serve, ?_, h.aligned⟩
  · rw [List.map_append, h.marks, List.takeWhile_map]
    rfl
  · simp only [List.dropWhile_map]
    rfl
  · rw [h.queue]
    exact ((List.dropWhile_suffix _).length_le).trans h.capacity

/-- One event keeps the agenda. -/
theorem queued_step [F64 θ] (rig : Rig θ) (event : RigEvent) (hfits : TicksFit rig event)
    (h : ∃ numbered waiting, Queued rig.controller marks numbered waiting) :
    ∃ numbered waiting, Queued ((rigMachine θ).step rig event).1.controller
      (marks ++ ((rigMachine θ).step rig event).2) numbered waiting := by
  have hmoves := rigMoves_step rig event
  generalize ((rigMachine θ).step rig event).1.controller = d,
    ((rigMachine θ).step rig event).2 = m at hmoves ⊢
  cases hmoves with
  | stay => simpa using h
  | accept bytes incoming => exact queued_accept incoming h
  | window window =>
    rw [List.append_nil]
    obtain ⟨numbered, waiting, h⟩ := h
    exact ⟨numbered, waiting, h.marks, h.queue, h.history, h.capacity, h.aligned⟩
  | reset =>
    obtain ⟨numbered, waiting, h⟩ := h
    refine ⟨_, _, ?_, rfl, h.history.clear, Nat.zero_le _, h.aligned⟩
    rw [List.map_append, h.marks]
    rfl
  | step arrived =>
    rw [← List.append_assoc]
    exact queued_execute (queued_receive arrived (hfits rfl) h)

/-- The scheduled queue of every run: it is sorted by execution ticks, ties in the order of
acceptance, and bounded. A command is taken exactly in the first step after its acceptance whose
tick is not before its execution tick, in the order of the queue, never twice, and is lost only
when a reset clears the queue. -/
theorem queue_correct [F64 θ] (ambientMilliC : Int64) (heaters : List HeaterCfg)
    (axes : List AxisCfg) (cfg : TransportConfig) {events : List RigEvent} {rig : Rig θ}
    (hfits : (rigMachine θ).Along TicksFit (.new ambientMilliC heaters axes cfg) events)
    (hrun : (rigMachine θ).run (.new ambientMilliC heaters axes cfg) events = (rig, marks)) :
    ∃ (numbered : List (Mark (Entry QueuedCommand))) (waiting : List (Entry QueuedCommand)),
      numbered.map (Mark.map Entry.item) = marks ∧
      (Mark.addedItems numbered).map Entry.number =
        List.range (Mark.addedItems numbered).length ∧
      waiting.map Entry.item = rig.controller.queue ∧
      waiting.Pairwise (Before dueTick) ∧
      (∀ e, e ∈ waiting ↔ Waits dueTick numbered e) ∧
      rig.controller.queue.length ≤ rig.controller.queueCapacity ∧
      rig.controller.now % stepTicks = 0 ∧
      (Mark.takenItems numbered).Pairwise (Before dueTick) ∧
      (Mark.takenItems numbered).Nodup ∧
      (∀ before tick taken after, numbered = before ++ .served tick taken :: after →
        ∀ e, e ∈ taken ↔ Waits dueTick before e ∧ dueTick e.item ≤ tick) ∧
      (∀ before e after, numbered = before ++ .added e :: after → .cleared ∉ after →
        e ∈ waiting ∨ e ∈ Mark.takenItems after) := by
  have hnew : ∃ numbered waiting, Queued
      (Rig.new ambientMilliC heaters axes cfg : Rig θ).controller [] numbered waiting :=
    ⟨[], [], rfl, rfl, .nil, Nat.zero_le _, rfl⟩
  have hqueued : ∃ numbered waiting, Queued rig.controller marks numbered waiting := by
    have hkept := Machine.run_along
      (P := fun rig marks => ∃ numbered waiting, Queued rig.controller marks numbered waiting)
      (fun rig marks event h hfits => queued_step rig event hfits h)
      hnew hfits
    simpa [hrun] using hkept
  obtain ⟨numbered, waiting, h⟩ := hqueued
  have haligned : rig.controller.now % stepTicks = 0 := by
    rw [← UInt64.toNat_inj, UInt64.toNat_mod]
    exact h.aligned
  exact ⟨numbered, waiting, h.marks, h.history.numbered, h.queue, h.history.sorted,
    h.history.waits, h.capacity, haligned, h.history.ordered, h.history.nodup, h.history.served,
    fun _ _ _ heq hkept => h.history.kept heq hkept⟩

/-- An immediate and a scheduled command that arrive together. -/
theorem queue_correct_two_commands :
    ∃ (numbered : List (Mark (Entry QueuedCommand))) (waiting : List (Entry QueuedCommand)),
      numbered.map (Mark.map Entry.item) =
        [.added ⟨101000, .home "x" 5000⟩, .added ⟨1000, .home "x" 10000⟩,
          .served 1000 [⟨1000, .home "x" 10000⟩], .served 2000 []] ∧
      waiting.map Entry.item = [⟨101000, .home "x" 5000⟩] ∧
      (Mark.takenItems numbered).Pairwise (Before dueTick) := by
  obtain ⟨numbered, waiting, hmarks, -, hqueue, -, -, -, -, hordered, -⟩ :=
    @queue_correct ℤ _ _ 25000 [] [] .default
      [.sendScheduled 0 101000 (.home "x" 5000), .send 0 (.home "x" 10000), .step, .step] _
      ⟨nofun, nofun, fun _ => by decide +kernel, fun _ => by decide +kernel, trivial⟩
      Prod.mk.eta.symm
  exact ⟨numbered, waiting, hmarks.trans (by decide +kernel), hqueue.trans (by decide +kernel),
    hordered⟩

end Dryer.Simulator
