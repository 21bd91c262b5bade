import Dryer.Simulator.AxisMotion
import Mathlib.Data.List.InsertIdx

/-!
# Conservation of moves

An axis owes the distances of the moves that were started for it. A motion that takes the
place of another one drops what remained of it.
-/
namespace Dryer.Simulator
open Library ControlProtocol

variable {θ : Type} {c : SimController θ} {name : String}

/-- The distance that the motion in progress has still to go. -/
def AxisState.remainingUm (a : AxisState) : Int64 := a.motion.elim 0 (·.remainingUm)

/-- The distances of the moves of one axis. -/
def movesOf (name : String) (commands : List QueuedCommand) : List Int64 :=
  commands.filterMap fun queued =>
    match queued.command with
    | .move axis distanceUm _ => if axis = name then some distanceUm else none
    | _ => none

def IsHome (name : String) : Command → Prop
  | .home axis _ => axis = name
  | _ => False

instance : DecidablePred (IsHome name)
  | .home axis _ => inferInstanceAs (Decidable (axis = name))
  | .heartbeat | .setHeaterTarget .. | .move .. => inferInstanceAs (Decidable False)

/-- The axis is where it started plus the moves that were started for it, but for what remains
of the motion in progress. -/
def Balanced (name : String) (c : SimController θ) (marks : List QueueMark) : Prop :=
  ∀ a, c.axis? name = some a →
    a.positionUm + a.remainingUm =
      a.cfg.startPositionUm + (movesOf name (Mark.takenItems marks)).sum

/-- No reset, and only moves for the axis. -/
def OnlyMoves [F64 θ] (name : String) (rig : Rig θ) (event : RigEvent) : Prop :=
  event ≠ .reset ∧ ∀ queued ∈ Mark.addedItems ((rigMachine θ).step rig event).2,
    ¬ IsHome name queued.command

/-- When a step starts moves for the axis, nothing remains of the motion in progress and of
the started moves but the last, taken together. -/
def NothingDisplaced (name : String) (rig : Rig θ) (event : RigEvent) : Prop :=
  event = .step → ∀ a, rig.received.axis? name = some a →
    movesOf name rig.received.due = [] ∨
      a.remainingUm + (movesOf name rig.received.due).dropLast.sum = 0

instance [F64 θ] (rig : Rig θ) : (event : RigEvent) → Decidable (OnlyMoves name rig event)
  | .reset => isFalse fun honly => honly.1 rfl
  | .frame _ | .send .. | .sendScheduled .. | .dropLink | .restoreLink | .setQueueWindow _
  | .step => decidable_of_iff _ (and_iff_right nofun).symm

instance [F64 θ] (rig : Rig θ) : (event : RigEvent) → Decidable (NothingDisplaced name rig event)
  | .step => decidable_of_iff
      ((rig.received.axis? name).all fun a =>
        movesOf name rig.received.due = [] ∨
          a.remainingUm + (movesOf name rig.received.due).dropLast.sum = 0)
      (by simp [NothingDisplaced, Option.all_eq_true])
  | .reset | .frame _ | .send .. | .sendScheduled .. | .dropLink | .restoreLink
  | .setQueueWindow _ => isTrue nofun

/-- The axis is not homing, and no homing waits for it. -/
structure Moving (name : String) (c : SimController θ) : Prop where
  queue : ∀ queued ∈ c.queue, ¬ IsHome name queued.command
  motion : ∀ a, c.axis? name = some a → ∀ m, a.motion = some m → m.homing = false

/-! ## One axis in a step -/

/-- An advance takes from what remains what it adds to the position. -/
theorem advance_balance (a : AxisState) (now : Tick)
    (hmove : ∀ m, a.motion = some m → m.homing = false) :
    (a.advance now).1.positionUm + (a.advance now).1.remainingUm =
        a.positionUm + a.remainingUm ∧
      ∀ m, (a.advance now).1.motion = some m → m.homing = false := by
  unfold AxisState.advance AxisState.remainingUm
  cases hmotion : a.motion with
  | none => simp [hmotion]
  | some m =>
    have hhoming := hmove m hmotion
    simp only [hhoming, Bool.false_eq_true, if_false]
    split_ifs <;> simp_all <;> grind

/-- Without homing the started motions are moves. -/
theorem startedMotion_moves {due : List QueuedCommand}
    (hhome : ∀ queued ∈ due, ¬ IsHome name queued.command) :
    ((due.map (·.command)).filterMap (startedMotion name)).map (·.remainingUm) =
        movesOf name due ∧
      ∀ m ∈ (due.map (·.command)).filterMap (startedMotion name), m.homing = false := by
  induction due with
  | nil => simp [movesOf]
  | cons queued due ih =>
    obtain ⟨hhead, htail⟩ := List.forall_mem_cons.mp hhome
    obtain ⟨hsum, hmoves⟩ := ih htail
    rw [movesOf] at hsum
    obtain ⟨executeAt, command⟩ := queued
    cases command with
    | heartbeat | setHeaterTarget =>
      simp only [List.map_cons, List.filterMap_cons, startedMotion, movesOf]
      exact ⟨hsum, hmoves⟩
    | home axis rateUmS =>
      have hne : axis ≠ name := hhead
      simp only [List.map_cons, List.filterMap_cons, startedMotion, movesOf, if_neg hne]
      exact ⟨hsum, hmoves⟩
    | move axis distanceUm rateUmS =>
      by_cases heq : axis = name
      · simp only [List.map_cons, List.filterMap_cons, startedMotion, movesOf, if_pos heq]
        exact ⟨congrArg _ hsum, List.forall_mem_cons.mpr ⟨rfl, hmoves⟩⟩
      · simp only [List.map_cons, List.filterMap_cons, startedMotion, movesOf, if_neg heq]
        exact ⟨hsum, hmoves⟩

/-- Starting what is due replaces what remains by the last of the started moves. -/
theorem startLast_eq (h : Moving name c) {a : AxisState} (ha : c.axis? name = some a) :
    (a.startLast name c.due).positionUm = a.positionUm ∧
      (a.startLast name c.due).cfg = a.cfg ∧
      (a.startLast name c.due).remainingUm =
        (movesOf name c.due).getLast?.getD a.remainingUm ∧
      ∀ m, (a.startLast name c.due).motion = some m → m.homing = false := by
  have hdue : ∀ queued ∈ c.due, ¬ IsHome name queued.command :=
    fun queued hqueued => h.queue queued ((List.takeWhile_prefix _).subset hqueued)
  obtain ⟨hsum, hmoves⟩ := startedMotion_moves hdue
  unfold AxisState.startLast
  rw [← hsum, List.getLast?_map]
  cases hlast : ((c.due.map (·.command)).filterMap (startedMotion name)).getLast? with
  | none => exact ⟨rfl, rfl, rfl, h.motion a ha⟩
  | some last =>
    refine ⟨rfl, rfl, rfl, fun m hm => ?_⟩
    obtain rfl : last = m := Option.some.inj hm
    exact hmoves last (List.mem_of_getLast? hlast)

/-- In a step what an axis owes grows by its started moves, less what they displace. -/
theorem balanced_execute_iff [F64 θ] {marks : List QueueMark} (hmoving : Moving name c)
    (h : Balanced name c marks) :
    Balanced name c.execute (marks ++ [.served c.now.toNat c.due]) ↔
      ∀ a, c.axis? name = some a → movesOf name c.due = [] ∨
        a.remainingUm + (movesOf name c.due).dropLast.sum = 0 := by
  have htaken : Mark.takenItems (marks ++ [.served c.now.toNat c.due]) =
      Mark.takenItems marks ++ c.due := by
    simp [Mark.takenItems]
  rw [Balanced, axis?_execute, htaken]
  simp only [Option.map_eq_some_iff, forall_exists_index, and_imp, forall_apply_eq_imp_iff₂]
  refine forall₂_congr fun a ha => ?_
  have hbalance := h a ha
  obtain ⟨hposition, hcfg, hremaining, hmove⟩ := startLast_eq hmoving ha
  rw [(advance_balance _ c.now hmove).1, advance_cfg, hposition, hcfg, hremaining]
  have hmovesOf : movesOf name (Mark.takenItems marks ++ c.due) =
      movesOf name (Mark.takenItems marks) ++ movesOf name c.due := List.filterMap_append
  rw [hmovesOf, List.sum_append]
  obtain hnone | ⟨earlier, last, hlast⟩ := (movesOf name c.due).eq_nil_or_concat
  · simp [hnone, hbalance]
  · rw [List.concat_eq_append] at hlast
    have hlastSum : (earlier ++ [last]).sum = earlier.sum + last := by simp
    have hne : earlier ++ [last] ≠ [] := by simp
    rw [hlast, List.getLast?_concat, List.dropLast_concat, hlastSum, Option.getD_some]
    simp only [hne, false_or]
    grind

/-! ## Runs -/

theorem takenItems_admitted (c : SimController θ) (incoming : CommandEnvelope) :
    Mark.takenItems (c.admitted incoming) = [] := by
  unfold SimController.admitted
  split
  · rfl
  · rfl

theorem takenItems_admittedAll (c : SimController θ) (arrived : List CommandEnvelope) :
    Mark.takenItems (c.admittedAll arrived) = [] := by
  induction arrived generalizing c with
  | nil => rfl
  | cons incoming arrived ih =>
    rw [SimController.admittedAll, Mark.takenItems_append, takenItems_admitted, ih]
    rfl

theorem Moving.congr {d : SimController θ} (h : Moving name c) (hqueue : d.queue = c.queue)
    (haxes : d.axes = c.axes) : Moving name d where
  queue := by
    rw [hqueue]
    exact h.queue
  motion := by
    rw [SimController.axis?, haxes]
    exact h.motion

theorem Moving.accept (h : Moving name c) (incoming : CommandEnvelope)
    (hhome : ∀ queued ∈ Mark.addedItems (c.admitted incoming), ¬ IsHome name queued.command) :
    Moving name (c.accept incoming) := by
  have haccepts := c.accepts_accept incoming
  generalize c.accept incoming = d, c.admitted incoming = m at haccepts hhome ⊢
  cases haccepts with
  | reject | heartbeat => exact h.congr rfl rfl
  | queue what queued =>
    refine ⟨fun other hother => ?_, h.motion⟩
    simp only [SimController.enqueue, SimController.record] at hother
    obtain rfl | hother := List.eq_or_mem_of_mem_insertIdx hother
    · exact hhome _ (.head _)
    · exact h.queue other hother

theorem Moving.receive (h : Moving name c) (arrived : List CommandEnvelope)
    (hhome : ∀ queued ∈
        Mark.addedItems ({ c with now := c.now + stepTicks }.admittedAll arrived),
      ¬ IsHome name queued.command) :
    Moving name (c.receive arrived) := by
  have hstart : Moving name { c with now := c.now + stepTicks } := h.congr rfl rfl
  have hkept := SimController.foldl_accept
    (P := fun d marks => (∀ queued ∈ Mark.addedItems marks, ¬ IsHome name queued.command) →
      Moving name d) ?_ (fun _ : ∀ queued ∈ Mark.addedItems [], _ => hstart) arrived
  · exact hkept hhome
  · intro d marks incoming hmoving hmarks
    rw [Mark.addedItems_append, List.forall_mem_append] at hmarks
    exact (hmoving hmarks.1).accept incoming hmarks.2

theorem Moving.execute [F64 θ] (h : Moving name c) : Moving name c.execute := by
  obtain ⟨_, _, hexecute, -⟩ := c.execute_eq
  constructor
  · intro queued hqueued
    rw [hexecute] at hqueued
    exact h.queue queued ((List.dropWhile_sublist _).subset hqueued)
  · intro a ha
    rw [axis?_execute, Option.map_eq_some_iff] at ha
    obtain ⟨b, hb, rfl⟩ := ha
    exact (advance_balance _ c.now (startLast_eq h hb).2.2.2).2

theorem Moving.step [F64 θ] {rig : Rig θ} (h : Moving name rig.controller) {event : RigEvent}
    (honly : OnlyMoves name rig event) :
    Moving name ((rigMachine θ).step rig event).1.controller := by
  obtain ⟨hreset, hhome⟩ := honly
  have hmoves := rigMoves_step rig event
  generalize ((rigMachine θ).step rig event).1.controller = d,
    ((rigMachine θ).step rig event).2 = m at hmoves hhome ⊢
  cases hmoves with
  | stay => exact h
  | accept bytes incoming => exact h.accept incoming hhome
  | window window => exact h.congr rfl rfl
  | reset => exact absurd rfl hreset
  | step arrived =>
    rw [Mark.addedItems_append, List.forall_mem_append] at hhome
    exact (h.receive arrived hhome.1).execute

theorem balanced_step_iff [F64 θ] {rig : Rig θ} {marks : List QueueMark} {event : RigEvent}
    (hmoving : Moving name rig.controller) (honly : OnlyMoves name rig event)
    (h : Balanced name rig.controller marks) :
    Balanced name ((rigMachine θ).step rig event).1.controller
        (marks ++ ((rigMachine θ).step rig event).2) ↔ NothingDisplaced name rig event := by
  by_cases hevent : event = .step
  · subst hevent
    have hreceived : Moving name rig.received := by
      refine hmoving.receive _ fun queued hqueued => honly.2 queued ?_
      exact (Mark.addedItems_append _ _).symm ▸ List.mem_append_left _ hqueued
    have hmarks : Balanced name rig.received
        (marks ++ { rig.controller with now := rig.controller.now + stepTicks }.admittedAll
          rig.arrived) := by
      rw [Balanced, SimController.axis?, Rig.received, SimController.receive_axes,
        Mark.takenItems_append, takenItems_admittedAll, List.append_nil]
      exact h
    have hiff := balanced_execute_iff hreceived hmarks
    rw [List.append_assoc] at hiff
    exact hiff.trans ⟨fun hnone _ => hnone, fun hnone => hnone rfl⟩
  · refine iff_of_true ?_ fun heq => absurd heq hevent
    have hmoves := rigMoves_step rig event
    generalize ((rigMachine θ).step rig event).1.controller = d,
      ((rigMachine θ).step rig event).2 = m at hmoves ⊢
    cases hmoves with
    | stay | window => rwa [List.append_nil]
    | accept bytes incoming =>
      rw [Balanced, SimController.axis?, SimController.accept_axes, Mark.takenItems_append,
        takenItems_admitted, List.append_nil]
      exact h
    | reset => exact absurd rfl honly.1
    | step => exact absurd rfl hevent

/-- Over every run in which an axis only receives moves they add up to its position and the rest
of its motion, exactly when no started move takes the place of one that is not complete. -/
theorem moves_conserved_iff [F64 θ] (name : String) (ambientMilliC : Int64)
    (heaters : List HeaterCfg) (axes : List AxisCfg) (cfg : TransportConfig)
    {events : List RigEvent}
    (honly : (rigMachine θ).Along (OnlyMoves name) (.new ambientMilliC heaters axes cfg) events) :
    (∀ before, before <+: events →
      Balanced name
        ((rigMachine θ).run (.new ambientMilliC heaters axes cfg) before).1.controller
        ((rigMachine θ).run (.new ambientMilliC heaters axes cfg) before).2) ↔
      (rigMachine θ).Along (NothingDisplaced name) (.new ambientMilliC heaters axes cfg)
        events := by
  have hnew : ∀ a, (SimController.new ambientMilliC heaters axes : SimController θ).axis? name =
      some a → a.motion = none ∧ a.positionUm = a.cfg.startPositionUm := by
    intro a ha
    obtain ⟨_, -, rfl⟩ := List.mem_map.mp (List.mem_of_find?_eq_some ha)
    exact ⟨rfl, rfl⟩
  have hmoving : Moving name
      (Rig.new ambientMilliC heaters axes cfg : Rig θ).controller := by
    refine ⟨fun queued hqueued => absurd hqueued List.not_mem_nil, fun a ha m hm => ?_⟩
    rw [(hnew a ha).1] at hm
    cases hm
  have hbalanced : Balanced name
      (Rig.new ambientMilliC heaters axes cfg : Rig θ).controller [] := by
    intro a ha
    obtain ⟨hmotion, hposition⟩ := hnew a ha
    simp [AxisState.remainingUm, hmotion, hposition, movesOf, Mark.takenItems]
  have hiff := Machine.forall_prefix_iff_along
    (I := fun rig : Rig θ => Moving name rig.controller)
    (P := fun rig marks => Balanced name rig.controller marks)
    (A := OnlyMoves name) (C := NothingDisplaced name)
    (fun rig event hmoving honly => hmoving.step honly)
    (fun rig marks event hmoving honly h => balanced_step_iff hmoving honly h)
    hmoving hbalanced honly
  simpa using hiff

/-- An axis at 7 um that goes 30 um up and, once it is there, 20 um back. -/
theorem moves_conserved_two_moves :
    let events : List RigEvent :=
      [.send 0 (.move "x" 30 10000), .step, .step, .step,
        .send 3000 (.move "x" (-20) 10000), .step, .step]
    ∀ before, before <+: events →
      Balanced "x" ((rigMachine ℤ).run (.new 25000 [] [⟨"x", 7⟩] .default) before).1.controller
        ((rigMachine ℤ).run (.new 25000 [] [⟨"x", 7⟩] .default) before).2 := by
  intro events
  have honly : (rigMachine ℤ).Along (OnlyMoves "x") (.new 25000 [] [⟨"x", 7⟩] .default)
      events := by
    decide +kernel
  refine (moves_conserved_iff "x" 25000 [] [⟨"x", 7⟩] .default honly).mpr ?_
  decide +kernel

/-- The second of two moves takes the place of the first after a millisecond of it. -/
theorem overlapping_moves_lose_distance :
    (rigMachine ℤ).Along (OnlyMoves "x") (.new 25000 [] [⟨"x", 0⟩] .default)
        [.send 0 (.move "x" 100 10000), .step, .send 1000 (.move "x" 50 10000), .step] ∧
      ¬ ∀ before, before <+:
          [.send 0 (.move "x" 100 10000), .step, .send 1000 (.move "x" 50 10000), .step] →
        Balanced "x"
          ((rigMachine ℤ).run (.new 25000 [] [⟨"x", 0⟩] .default) before).1.controller
          ((rigMachine ℤ).run (.new 25000 [] [⟨"x", 0⟩] .default) before).2 := by
  refine ⟨⟨⟨nofun, nofun⟩, ⟨nofun, by decide +kernel⟩, ⟨nofun, nofun⟩,
    ⟨nofun, by decide +kernel⟩, trivial⟩, fun hall => ?_⟩
  have hsum := hall _ (List.prefix_refl _) ⟨⟨"x", 0⟩, 20, some ⟨"move x 50 um", 10, 40, false⟩⟩
    (by decide +kernel)
  exact absurd hsum (by decide +kernel)

end Dryer.Simulator
