import Dryer.Simulator.Rig
import Mathlib.Tactic.Ring

/-!
# The motion of one axis

Axes are found by their names, and a step moves each of them on its own: of the motions that
are due for an axis it starts the last one, and then advances it.
-/
namespace Dryer.Simulator
open Library ControlProtocol

variable {θ : Type}

def SimController.axis? (c : SimController θ) (name : String) : Option AxisState :=
  c.axes.find? (·.cfg.name == name)

/-- The motion that a command starts on an axis. -/
def startedMotion (name : String) : Command → Option Motion
  | .home axis rateUmS => if axis = name then some (homeMotion name rateUmS) else none
  | .move axis distanceUm rateUmS =>
    if axis = name then some (moveMotion name distanceUm rateUmS) else none
  | _ => none

/-- A command that starts a motion on the axis of a name. -/
inductive Starts (name : String) : Command → Motion → Prop
  | home (rateUmS : UInt64) : Starts name (.home name rateUmS) (homeMotion name rateUmS)
  | move (distanceUm : Int64) (rateUmS : UInt64) :
      Starts name (.move name distanceUm rateUmS) (moveMotion name distanceUm rateUmS)

/-! ## Starting and advancing -/

theorem starts_of_startedMotion {name : String} {command : Command} {m : Motion}
    (h : startedMotion name command = some m) : Starts name command m := by
  cases command with
  | heartbeat | setHeaterTarget => cases h
  | home axis rateUmS =>
    obtain ⟨rfl, rfl⟩ : axis = name ∧ homeMotion name rateUmS = m := by
      simpa [startedMotion] using h
    exact .home rateUmS
  | move axis distanceUm rateUmS =>
    obtain ⟨rfl, rfl⟩ : axis = name ∧ moveMotion name distanceUm rateUmS = m := by
      simpa [startedMotion] using h
    exact .move distanceUm rateUmS

theorem find?_startAxes (axes : List AxisState) (name : String) (command : Command) :
    (SimController.startAxes axes command).find? (·.cfg.name == name) =
      (axes.find? (·.cfg.name == name)).map fun a =>
        (startedMotion name command).elim a a.begin := by
  have hother {axis : String} (motion : Motion) (hne : axis ≠ name) :
      (modifyFirst (·.cfg.name == axis) (AxisState.begin · motion) axes).find?
        (·.cfg.name == name) = axes.find? (·.cfg.name == name) := by
    apply find?_modifyFirst_of_disjoint (f := (AxisState.begin · motion)) (fun _ => rfl)
    intro a ha
    grind
  have hself (motion : Motion) :
      (modifyFirst (·.cfg.name == name) (AxisState.begin · motion) axes).find?
        (·.cfg.name == name) = (axes.find? (·.cfg.name == name)).map (AxisState.begin · motion) :=
    find?_modifyFirst_self (f := (AxisState.begin · motion)) (fun _ => rfl) axes
  cases command with
  | heartbeat | setHeaterTarget => simp [SimController.startAxes, startedMotion]
  | home axis rateUmS =>
    by_cases heq : axis = name
    · subst heq
      simpa [SimController.startAxes, startedMotion] using hself _
    · simpa [SimController.startAxes, startedMotion, heq] using hother _ heq
  | move axis distanceUm rateUmS =>
    by_cases heq : axis = name
    · subst heq
      simpa [SimController.startAxes, startedMotion] using hself _
    · simpa [SimController.startAxes, startedMotion, heq] using hother _ heq

/-- Of several motions started on an axis the last one remains. -/
theorem find?_foldl_startAxes (axes : List AxisState) (name : String) (commands : List Command) :
    (commands.foldl SimController.startAxes axes).find? (·.cfg.name == name) =
      (axes.find? (·.cfg.name == name)).map fun a =>
        ((commands.filterMap (startedMotion name)).getLast?).elim a a.begin := by
  induction commands generalizing axes with
  | nil => simp
  | cons command commands ih =>
    rw [List.foldl_cons, ih, find?_startAxes, Option.map_map]
    congr 1
    funext a
    cases hstart : startedMotion name command with
    | none => simp [hstart]
    | some motion =>
      cases hlast : (commands.filterMap (startedMotion name)).getLast? with
      | none => simp_all [Option.elim]
      | some last => simp_all [Option.elim, AxisState.begin, List.getLast?_cons]

theorem advance_cfg (a : AxisState) (now : Tick) : (a.advance now).1.cfg = a.cfg := by
  unfold AxisState.advance
  grind

/-- The axis when its last due motion has been started. -/
def AxisState.startLast (a : AxisState) (name : String) (due : List QueuedCommand) : AxisState :=
  ((due.map (·.command)).filterMap (startedMotion name)).getLast?.elim a a.begin

theorem axis?_execute [F64 θ] (c : SimController θ) (name : String) :
    c.execute.axis? name = (c.axis? name).map fun a =>
      ((a.startLast name c.due).advance c.now).1 := by
  obtain ⟨_, _, hexecute, -⟩ := c.execute_eq
  have hname : (fun a : AxisState => a.cfg.name == name) ∘
      (fun a : AxisState => (a.advance c.now).1) = fun a => a.cfg.name == name := by
    funext a
    simp only [Function.comp_apply, advance_cfg]
  rw [hexecute, SimController.axis?, List.find?_map, hname, find?_foldl_startAxes, Option.map_map]
  rfl

/-! ## One motion from position 0 -/

namespace Motion

/-- Where a number of steps at its rate take an axis. -/
def sweptUm (m : Motion) (steps : ℕ) : Int64 := Int64.ofInt (steps * m.perMsUm.toInt)

/-- The step that follows a number of steps completes the motion. -/
def CompletesAfter (m : Motion) (steps : ℕ) : Prop :=
  if m.homing then m.sweptUm (steps + 1) ≤ 0
  else m.perMsUm.abs ≥ (m.remainingUm - m.sweptUm steps).abs

def InProgress (m : Motion) (steps : ℕ) : Prop := ∀ earlier < steps, ¬ m.CompletesAfter earlier

/-- Where the motion completes. -/
def endUm (m : Motion) : Int64 := if m.homing then 0 else m.remainingUm

/-- The motion when a number of steps have been taken. -/
def after (m : Motion) (steps : ℕ) : Motion :=
  if m.homing then m else { m with remainingUm := m.remainingUm - m.sweptUm steps }

@[simp] theorem sweptUm_zero (m : Motion) : m.sweptUm 0 = 0 := by simp [sweptUm]

theorem sweptUm_succ (m : Motion) (steps : ℕ) :
    m.sweptUm (steps + 1) = m.sweptUm steps + m.perMsUm := by
  have hexpand : ((steps + 1 : ℕ) : ℤ) * m.perMsUm.toInt =
      steps * m.perMsUm.toInt + m.perMsUm.toInt := by
    rw [Nat.cast_succ, add_mul, one_mul]
  rw [sweptUm, hexpand, Int64.ofInt_add, Int64.ofInt_toInt, sweptUm]

theorem inProgress_zero (m : Motion) : m.InProgress 0 := fun _ hlt => absurd hlt (Nat.not_lt_zero _)

theorem inProgress_succ (m : Motion) (steps : ℕ) :
    m.InProgress (steps + 1) ↔ m.InProgress steps ∧ ¬ m.CompletesAfter steps := by
  unfold InProgress
  rw [Nat.forall_lt_succ_right]

theorem after_zero (m : Motion) : m.after 0 = m := by
  simp [after]

end Motion

/-- The axis is where a motion from position 0 has taken it. -/
inductive AxisState.Follows (a : AxisState) (m : Motion) (steps : ℕ) : Prop
  | moving : m.InProgress steps → a.positionUm = m.sweptUm steps →
      a.motion = some (m.after steps) → Follows a m steps
  | done : ¬ m.InProgress steps → a.positionUm = m.endUm → a.motion = none → Follows a m steps

theorem follows_advance {a : AxisState} {m : Motion} {steps : ℕ} (h : a.Follows m steps)
    (now : Tick) : (a.advance now).1.Follows m (steps + 1) := by
  cases h with
  | done hdone hposition hmotion =>
    refine .done (fun hmoving => hdone ((m.inProgress_succ steps).mp hmoving).1) ?_ ?_
    · simpa [AxisState.advance, hmotion] using hposition
    · simp [AxisState.advance, hmotion]
  | moving hmoving hposition hmotion =>
    have hswept := m.sweptUm_succ steps
    have hsucc := m.inProgress_succ steps
    unfold AxisState.advance
    rw [hmotion]
    obtain hhoming | hhoming := Bool.eq_false_or_eq_true m.homing
    · have hafter (n : ℕ) : m.after n = m := by simp [Motion.after, hhoming]
      have hcompletes : m.CompletesAfter steps ↔ a.positionUm + m.perMsUm ≤ 0 := by
        simp [Motion.CompletesAfter, hhoming, hswept, hposition]
      rw [hcompletes] at hsucc
      simp only [hafter, hhoming, if_true]
      split_ifs with hends
      · exact .done (fun hlater => (hsucc.mp hlater).2 hends) (by simp [Motion.endUm, hhoming]) rfl
      · exact .moving (hsucc.mpr ⟨hmoving, hends⟩) (by rw [hposition, hswept]) (by rw [hafter])
    · have hafter (n : ℕ) : m.after n = { m with remainingUm := m.remainingUm - m.sweptUm n } := by
        simp [Motion.after, hhoming]
      have hcompletes : m.CompletesAfter steps ↔
          m.perMsUm.abs ≥ (m.remainingUm - m.sweptUm steps).abs := by
        simp [Motion.CompletesAfter, hhoming]
      rw [hcompletes] at hsucc
      simp only [hafter, hhoming, Bool.false_eq_true, if_false]
      by_cases hends : m.perMsUm.abs ≥ (m.remainingUm - m.sweptUm steps).abs
      · simp only [if_pos hends, Int64.sub_self, if_true]
        refine .done (fun hlater => (hsucc.mp hlater).2 hends) ?_ rfl
        simp only [Motion.endUm, hhoming, hposition]
        grind
      · have hrest : m.remainingUm - m.sweptUm steps - m.perMsUm ≠ 0 := by
          intro hzero
          grind
        simp only [if_neg hends, if_neg hrest]
        refine .moving (hsucc.mpr ⟨hmoving, hends⟩) (by rw [hposition, hswept]) ?_
        simp only [hafter, hswept]
        grind

/-! ## Rates -/

/-- The motion heads for its end. -/
structure Motion.Forward (m : Motion) : Prop where
  bounded : -2 ^ 63 < m.perMsUm.toInt
  home : m.homing = true → m.perMsUm.toInt ≤ 0
  move : m.homing = false → (0 ≤ m.perMsUm.toInt ∧ 0 ≤ m.remainingUm.toInt) ∨
    (m.perMsUm.toInt ≤ 0 ∧ m.remainingUm.toInt ≤ 0)

/-- On its way a motion that heads for its end is between 0 and this end. -/
theorem Motion.Forward.sweptUm_between {m : Motion} (h : m.Forward) {steps : ℕ}
    (hmoving : m.InProgress steps) :
    (m.sweptUm steps).toInt = steps * m.perMsUm.toInt ∧
      ((0 ≤ (m.sweptUm steps).toInt ∧ (m.sweptUm steps).toInt ≤ m.endUm.toInt) ∨
        (m.endUm.toInt ≤ (m.sweptUm steps).toInt ∧ (m.sweptUm steps).toInt ≤ 0)) := by
  induction steps with
  | zero => simp [Int64.toInt_zero]; omega
  | succ steps ih =>
    obtain ⟨hbefore, hgoes⟩ := (m.inProgress_succ steps).mp hmoving
    obtain ⟨hswept, hbetween⟩ := ih hbefore
    have hbounded := h.bounded
    obtain hhoming | hmove := Bool.eq_false_or_eq_true m.homing
    · -- homing away from positive positions ends in the first step
      refine absurd ?_ (hmoving 0 (Nat.succ_pos steps))
      rw [Motion.CompletesAfter, if_pos hhoming, m.sweptUm_succ, m.sweptUm_zero, Int64.zero_add,
        Int64.le_iff_toInt_le]
      exact h.home hhoming
    · have hend : m.endUm = m.remainingUm := by simp [Motion.endUm, hmove]
      have hdirection := h.move hmove
      rw [Motion.CompletesAfter, if_neg (by simp [hmove]), ge_iff_le, Int64.le_iff_toInt_le,
        I64.toInt_abs, I64.toInt_abs, Int64.toInt_sub] at hgoes
      rw [hend] at hbetween ⊢
      have hlo := m.remainingUm.le_toInt
      have hhi := m.remainingUm.toInt_lt
      have hrest : (m.remainingUm.toInt - (m.sweptUm steps).toInt).bmod (2 ^ 64) =
          m.remainingUm.toInt - (m.sweptUm steps).toInt := by
        rw [Int.bmod_eq_of_le] <;> omega
      rw [hrest] at hgoes
      have hadd : (m.sweptUm (steps + 1)).toInt = (m.sweptUm steps).toInt + m.perMsUm.toInt := by
        rw [m.sweptUm_succ, Int64.toInt_add]
        rw [Int.bmod_eq_of_le] <;> grind
      rw [hadd]
      refine ⟨by rw [hswept]; push_cast; ring, ?_⟩
      grind

/-- The rate of a motion command as a signed integer is the rate. -/
def RateFits : Command → Prop
  | .home _ rateUmS | .move _ _ rateUmS => rateUmS.toNat < 2 ^ 63
  | _ => True

/-- A division by 1000 keeps the sign and leaves room for a change of it. -/
theorem toInt_div_thousand (value : Int64) :
    (0 ≤ value.toInt → 0 ≤ (value / 1000).toInt) ∧ (value.toInt ≤ 0 → (value / 1000).toInt ≤ 0) ∧
      -2 ^ 62 < (value / 1000).toInt ∧ (value / 1000).toInt < 2 ^ 62 := by
  have hdiv : (value / 1000).toInt = value.toInt.tdiv 1000 :=
    Int64.toInt_div_of_ne_right _ _ (by decide)
  have hlo := value.le_toInt
  have hhi := value.toInt_lt
  rw [hdiv]
  obtain hpos | hneg := Int.le_total 0 value.toInt
  · rw [Int.tdiv_eq_ediv_of_nonneg hpos]
    omega
  · have hflip : value.toInt.tdiv 1000 = -(-value.toInt / 1000) := by
      rw [← Int.tdiv_eq_ediv_of_nonneg (by omega), Int.neg_tdiv, Int.neg_neg]
    rw [hflip]
    omega

theorem forward_homeMotion (name : String) {rateUmS : UInt64} (h : rateUmS.toNat < 2 ^ 63) :
    (homeMotion name rateUmS).Forward := by
  obtain ⟨hpos, -, hlo, hhi⟩ := toInt_div_thousand rateUmS.toInt64
  rw [U64.toInt_toInt64 h] at hpos
  have hback : (homeMotion name rateUmS).perMsUm.toInt = -(rateUmS.toInt64 / 1000).toInt := by
    rw [homeMotion, Int64.toInt_neg, Int.bmod_eq_of_le] <;> omega
  exact ⟨by omega, fun _ => by omega, nofun⟩

theorem forward_moveMotion (name : String) (distanceUm : Int64) {rateUmS : UInt64}
    (h : rateUmS.toNat < 2 ^ 63) : (moveMotion name distanceUm rateUmS).Forward := by
  have hrate := U64.toInt_toInt64 h
  have hdistance : (moveMotion name distanceUm rateUmS).remainingUm = distanceUm := rfl
  have hperMs : (moveMotion name distanceUm rateUmS).perMsUm =
    I64.signum distanceUm * rateUmS.toInt64 / 1000 := rfl
  obtain ⟨hpos, hneg, hlo, hhi⟩ := toInt_div_thousand (I64.signum distanceUm * rateUmS.toInt64)
  rw [← hperMs] at hpos hneg hlo hhi
  refine ⟨by omega, nofun, fun _ => ?_⟩
  rw [hdistance]
  by_cases hzero : distanceUm = 0
  · have hsign : I64.signum distanceUm * rateUmS.toInt64 = 0 := by
      rw [I64.signum, if_pos hzero, Int64.zero_mul]
    rw [hsign] at hpos
    exact .inl ⟨hpos le_rfl, by rw [hzero]; decide⟩
  · by_cases hback : distanceUm < 0
    · have hsign : (I64.signum distanceUm * rateUmS.toInt64).toInt = -rateUmS.toNat := by
        rw [I64.signum, if_neg hzero, if_pos hback, Int64.neg_mul, Int64.one_mul, Int64.toInt_neg,
          hrate, Int.bmod_eq_of_le] <;> omega
      rw [Int64.lt_iff_toInt_lt, Int64.toInt_zero] at hback
      exact .inr ⟨hneg (by omega), by omega⟩
    · have hsign : I64.signum distanceUm * rateUmS.toInt64 = rateUmS.toInt64 := by
        rw [I64.signum, if_neg hzero, if_neg hback, Int64.one_mul]
      rw [Int64.not_lt, Int64.le_iff_toInt_le, Int64.toInt_zero] at hback
      rw [hsign] at hpos
      exact .inl ⟨hpos (by omega), hback⟩

/-- With a rate that fits, every motion heads for its end. -/
theorem forward_startedMotion {name : String} {command : Command} (hfits : RateFits command)
    {m : Motion} (h : startedMotion name command = some m) : m.Forward := by
  cases starts_of_startedMotion h with
  | home rateUmS => exact forward_homeMotion name hfits
  | move distanceUm rateUmS => exact forward_moveMotion name distanceUm hfits

end Dryer.Simulator
