import Dryer.Simulator.CheckedMotion

/-!
# Progress of motions

A motion that is left alone brings its axis closer to its end in every step, and ends there. For
this its rate must be read as positive, and come to a micrometre in a step, unless the first step
completes the motion.
-/
namespace Dryer.Simulator
open Library ControlProtocol

variable {θ : Type} {name : String}

/-- Where a command takes an axis from a position. -/
def targetUm (positionUm : ℤ) : Command → ℤ
  | .move _ distanceUm _ => positionUm + distanceUm.toInt
  | _ => 0

/-- Closer to a target, and not past it. -/
def Toward (target before after : ℤ) : Prop :=
  (before ≤ after ∧ after ≤ target ∨ target ≤ after ∧ after ≤ before) ∧
    (after = before → before = target)

/-- The last motion that the next step starts on the axis is that of a command. -/
def StartsLast (name : String) (rig : Rig θ) (command : Command) : Prop :=
  ∃ earlier later, rig.received.due.map (·.command) = earlier ++ command :: later ∧
    commandAxis command = some name ∧ ∀ other ∈ later, commandAxis other ≠ some name

/-- No reset, and no step that starts a motion on the axis. -/
def Undisturbed (name : String) (rig : Rig θ) (event : RigEvent) : Prop :=
  event ≠ .reset ∧
    (event = .step → ∀ queued ∈ rig.received.due, commandAxis queued.command ≠ some name)

def StepsToward [F64 θ] (name : String) (target : ℤ) (rig : Rig θ) (event : RigEvent) : Prop :=
  event = .step → ∀ a ∈ rig.controller.axis? name,
    ∀ b ∈ ((rigMachine θ).step rig event).1.controller.axis? name,
      Toward target a.positionUm.toInt b.positionUm.toInt

def stepCount : List RigEvent → ℕ
  | [] => 0
  | .step :: events => stepCount events + 1
  | _ :: events => stepCount events

/-- In every run that begins with a step, in which nothing overflows and nothing else happens to
the axis, the steps take the axis to a target, and enough of them complete the motion there. -/
structure Progresses [F64 θ] (name : String) (target : ℤ) (rig : Rig θ) : Prop where
  toward : ∀ later,
    (rigMachine θ).Along (Undisturbed name) ((rigMachine θ).step rig .step).1 later →
    (rigMachine θ).Along NoOverflow rig (.step :: later) →
      (rigMachine θ).Along (StepsToward name target) rig (.step :: later)
  completes : ∃ steps, ∀ later,
    (rigMachine θ).Along (Undisturbed name) ((rigMachine θ).step rig .step).1 later →
    (rigMachine θ).Along NoOverflow rig (.step :: later) → steps ≤ stepCount later →
      ∃ a, ((rigMachine θ).run rig (.step :: later)).1.controller.axis? name = some a ∧
        a.motion = none ∧ a.positionUm.toInt = target

/-- The rate is positive as a signed integer and comes to a micrometre in a step, or the first step
completes the motion. -/
def Paced (positionUm : ℤ) : Command → Prop
  | .home _ rateUmS =>
    (1000 ≤ rateUmS.toNat ∧ rateUmS.toNat < 2 ^ 63) ∨ positionUm - stepUm rateUmS ≤ 0
  | .move _ distanceUm rateUmS =>
    (1000 ≤ rateUmS.toNat ∧ rateUmS.toNat < 2 ^ 63) ∨
      distanceUm.toInt.natAbs ≤ (stepUm rateUmS).natAbs
  | _ => True

/-! ## One step -/

section Steps

variable {a b : AxisState} {m : Motion} {target : ℤ}

theorem checkedAdvance_home (hmotion : a.motion = some m) (hhoming : m.homing = true)
    (h : a.checkedAdvance = some b) :
    I64.InRange (a.positionUm.toInt + m.perMsUm.toInt) ∧
    ((a.positionUm.toInt + m.perMsUm.toInt ≤ 0 ∧ b = { a with positionUm := 0, motion := none }) ∨
      (0 < a.positionUm.toInt + m.perMsUm.toInt ∧
        b.positionUm.toInt = a.positionUm.toInt + m.perMsUm.toInt ∧ b.motion = some m)) := by
  unfold AxisState.checkedAdvance at h
  rw [hmotion] at h
  dsimp only at h
  rw [if_pos hhoming] at h
  obtain ⟨positionUm, hposition, hb⟩ := Option.map_eq_some_iff.mp h
  refine ⟨I64.isSome_ofInt?.mp (Option.isSome_of_mem hposition), ?_⟩
  rw [← I64.ofInt?_eq_some.mp hposition, ← hb]
  split
  · rename_i hends
    rw [Int64.le_iff_toInt_le, Int64.toInt_zero] at hends
    exact .inl ⟨hends, rfl⟩
  · rename_i hgoes
    rw [Int64.le_iff_toInt_le, Int64.toInt_zero] at hgoes
    exact .inr ⟨by omega, rfl, rfl⟩

theorem checkedAdvance_move (hmotion : a.motion = some m) (hmove : m.homing = false)
    (h : a.checkedAdvance = some b) :
    m.remainingUm.toInt ≠ -2 ^ 63 ∧
    ((m.remainingUm.toInt.natAbs ≤ m.perMsUm.toInt.natAbs ∧ b.motion = none ∧
        b.positionUm.toInt = a.positionUm.toInt + m.remainingUm.toInt) ∨
      (m.perMsUm.toInt.natAbs < m.remainingUm.toInt.natAbs ∧
        b.positionUm.toInt = a.positionUm.toInt + m.perMsUm.toInt ∧
        ∃ remainingUm : Int64, b.motion = some { m with remainingUm } ∧
          remainingUm.toInt = m.remainingUm.toInt - m.perMsUm.toInt)) := by
  unfold AxisState.checkedAdvance at h
  rw [hmotion] at h
  dsimp only at h
  rw [if_neg (by simp [hmove])] at h
  obtain ⟨perMsAbs, hperMs, h⟩ := Option.bind_eq_some_iff.mp h
  obtain ⟨remainingAbs, hremaining, h⟩ := Option.bind_eq_some_iff.mp h
  obtain ⟨positionUm, hposition, h⟩ := Option.bind_eq_some_iff.mp h
  obtain ⟨remainingUm, hrest, hb⟩ := Option.bind_eq_some_iff.mp h
  have hbUm := Option.some.inj hb
  have hends : perMsAbs ≥ remainingAbs ↔ m.remainingUm.toInt.natAbs ≤ m.perMsUm.toInt.natAbs := by
    rw [ge_iff_le, Int64.le_iff_toInt_le, I64.toInt_of_checkedAbs hperMs,
      I64.toInt_of_checkedAbs hremaining, Int.ofNat_le]
  refine ⟨?_, ?_⟩
  · have hhi := remainingAbs.toInt_lt
    have habs := I64.toInt_of_checkedAbs hremaining
    omega
  replace hposition := I64.ofInt?_eq_some.mp hposition
  replace hrest := I64.ofInt?_eq_some.mp hrest
  by_cases hall : m.remainingUm.toInt.natAbs ≤ m.perMsUm.toInt.natAbs
  · rw [if_pos (hends.mpr hall)] at hposition hrest
    have hzero : remainingUm = 0 := by
      rw [← Int64.toInt_inj, hrest, sub_self]
      rfl
    rw [if_pos hzero] at hbUm
    rw [← hbUm]
    exact .inl ⟨hall, rfl, hposition⟩
  · rw [if_neg (mt hends.mp hall)] at hposition hrest
    have hnonzero : remainingUm ≠ 0 := by
      intro hzero
      rw [hzero, Int64.toInt_zero] at hrest
      omega
    rw [if_neg hnonzero] at hbUm
    rw [← hbUm]
    exact .inr ⟨by omega, hposition, remainingUm, rfl, hrest⟩

/-- A motion is on its way to a target, or complete there. -/
inductive AxisState.Heading (target : ℤ) (a : AxisState) : Prop
  | complete : a.motion = none → a.positionUm.toInt = target → Heading target a
  | home (m : Motion) : a.motion = some m → m.homing = true → target = 0 → m.perMsUm.toInt < 0 →
      Heading target a
  | move (m : Motion) : a.motion = some m → m.homing = false →
      target = a.positionUm.toInt + m.remainingUm.toInt →
      (0 < m.perMsUm.toInt ∧ 0 < m.remainingUm.toInt) ∨
        (m.perMsUm.toInt < 0 ∧ m.remainingUm.toInt < 0) →
      Heading target a

/-- A bound on the steps that a motion on its way to a target still takes. -/
def AxisState.stepsLeft (target : ℤ) (a : AxisState) : ℕ :=
  a.motion.elim 0 fun _ => (target - a.positionUm.toInt).natAbs + 1

theorem AxisState.stepsLeft_of_none (h : a.motion = none) : a.stepsLeft target = 0 := by
  rw [stepsLeft, h]
  rfl

theorem AxisState.stepsLeft_of_some (h : a.motion = some m) :
    a.stepsLeft target = (target - a.positionUm.toInt).natAbs + 1 := by
  rw [stepsLeft, h]
  rfl

theorem heading_checkedAdvance (h : a.Heading target) (hb : a.checkedAdvance = some b) :
    Toward target a.positionUm.toInt b.positionUm.toInt ∧ b.Heading target ∧
      b.stepsLeft target ≤ a.stepsLeft target - 1 := by
  cases h with
  | complete hnone hposition =>
    have hstay : a.checkedAdvance = some a := by
      unfold AxisState.checkedAdvance
      rw [hnone]
    obtain rfl := Option.some.inj (hstay.symm.trans hb)
    refine ⟨⟨by omega, fun _ => hposition⟩, .complete hnone hposition, ?_⟩
    rw [AxisState.stepsLeft_of_none hnone]
  | home m hmotion hhoming hend hperMs =>
    obtain ⟨-, ⟨hends, rfl⟩ | ⟨hgoes, hposition, hmotionb⟩⟩ :=
      checkedAdvance_home hmotion hhoming hb
    · refine ⟨?_, .complete rfl hend.symm, Nat.zero_le _⟩
      unfold Toward
      dsimp only
      rw [Int64.toInt_zero]
      omega
    · rw [AxisState.stepsLeft_of_some hmotion, AxisState.stepsLeft_of_some hmotionb]
      refine ⟨?_, .home m hmotionb hhoming hend hperMs, by omega⟩
      unfold Toward
      omega
  | move m hmotion hmove hend hsigns =>
    obtain ⟨-, ⟨hends, hnone, hposition⟩ | ⟨hgoes, hposition, remainingUm, hmotionb, hrest⟩⟩ :=
      checkedAdvance_move hmotion hmove hb
    · refine ⟨?_, .complete hnone (by omega), ?_⟩
      · unfold Toward
        omega
      · rw [AxisState.stepsLeft_of_none hnone]
        exact Nat.zero_le _
    · rw [AxisState.stepsLeft_of_some hmotion, AxisState.stepsLeft_of_some hmotionb]
      refine ⟨?_, .move _ hmotionb hmove ?_ ?_, by omega⟩
      · unfold Toward
        omega
      · dsimp only
        omega
      · dsimp only
        omega

/-- A motion that takes its axis further away from its end in every step. -/
inductive AxisState.Leaving (a : AxisState) : Prop
  | home (m : Motion) : a.motion = some m → m.homing = true → 0 < m.perMsUm.toInt →
      0 < a.positionUm.toInt + m.perMsUm.toInt → Leaving a
  | move (m : Motion) : a.motion = some m → m.homing = false →
      m.perMsUm.toInt.natAbs < m.remainingUm.toInt.natAbs →
      (0 < m.perMsUm.toInt ∧ m.remainingUm.toInt < 0) ∨
        (m.perMsUm.toInt < 0 ∧ 0 < m.remainingUm.toInt) →
      Leaving a

/-- A bound on the steps until a motion that leaves its end is out of range. -/
def AxisState.room (a : AxisState) : ℤ :=
  a.motion.elim 0 fun m =>
    if m.homing then 2 ^ 63 - a.positionUm.toInt else 2 ^ 63 - m.remainingUm.toInt.natAbs

theorem AxisState.room_of_home (h : a.motion = some m) (hhoming : m.homing = true) :
    a.room = 2 ^ 63 - a.positionUm.toInt := by
  rw [room, h, Option.elim_some, if_pos hhoming]

theorem AxisState.room_of_move (h : a.motion = some m) (hmove : m.homing = false) :
    a.room = 2 ^ 63 - m.remainingUm.toInt.natAbs := by
  rw [room, h, Option.elim_some, if_neg (by simp [hmove])]

theorem leaving_checkedAdvance (h : a.Leaving) (hb : a.checkedAdvance = some b) :
    b.Leaving ∧ b.room + 1 ≤ a.room := by
  cases h with
  | home m hmotion hhoming hperMs hgoes =>
    obtain ⟨-, ⟨hends, -⟩ | ⟨-, hposition, hmotionb⟩⟩ := checkedAdvance_home hmotion hhoming hb
    · omega
    · rw [AxisState.room_of_home hmotion hhoming, AxisState.room_of_home hmotionb hhoming]
      exact ⟨.home m hmotionb hhoming hperMs (by omega), by omega⟩
  | move m hmotion hmove hlong hsigns =>
    obtain ⟨-, ⟨hends, -⟩ | ⟨-, -, remainingUm, hmotionb, hrest⟩⟩ :=
      checkedAdvance_move hmotion hmove hb
    · omega
    · rw [AxisState.room_of_move hmotion hmove, AxisState.room_of_move hmotionb hmove]
      dsimp only
      refine ⟨.move _ hmotionb hmove ?_ ?_, by omega⟩
      · dsimp only
        omega
      · dsimp only
        omega

theorem AxisState.Leaving.room_nonneg (h : a.Leaving) : 0 ≤ a.room := by
  cases h with
  | home m hmotion hhoming =>
    have hhi := a.positionUm.toInt_lt
    rw [room_of_home hmotion hhoming]
    omega
  | move m hmotion hmove =>
    have hlo := m.remainingUm.le_toInt
    have hhi := m.remainingUm.toInt_lt
    rw [room_of_move hmotion hmove]
    omega

/-! ## The first step -/

theorem stepUm_pos_iff {rateUmS : UInt64} :
    0 < stepUm rateUmS ↔ 1000 ≤ rateUmS.toNat ∧ rateUmS.toNat < 2 ^ 63 := by
  have hlt := rateUmS.toNat_lt
  unfold stepUm
  split <;> omega

/-- The motion that a command starts without overflow. -/
inductive CheckedStarts (name : String) : Command → Motion → Prop
  | home (rateUmS : UInt64) (m : Motion) : checkedHome name rateUmS = some m →
      CheckedStarts name (.home name rateUmS) m
  | move (distanceUm : Int64) (rateUmS : UInt64) (m : Motion) :
      checkedMove name distanceUm rateUmS = some m →
      CheckedStarts name (.move name distanceUm rateUmS) m

/-- The first step of a motion is towards its end exactly when the command is paced, and so are then
the others. -/
theorem toward_first_iff {command : Command} (hstarts : CheckedStarts name command m)
    (hb : (a.begin m).checkedAdvance = some b) :
    (Toward (targetUm a.positionUm.toInt command) a.positionUm.toInt b.positionUm.toInt ↔
        Paced a.positionUm.toInt command) ∧
      (Paced a.positionUm.toInt command → b.Heading (targetUm a.positionUm.toInt command)) := by
  have hbegin : (a.begin m).positionUm = a.positionUm := rfl
  cases hstarts with
  | home rateUmS m hm =>
    obtain ⟨hperMs, hhoming⟩ := perMsUm_of_checkedHome hm
    unfold Toward targetUm Paced
    dsimp only
    rw [← stepUm_pos_iff]
    obtain ⟨-, ⟨hends, rfl⟩ | ⟨hgoes, hposition, hmotion⟩⟩ := checkedAdvance_home rfl hhoming hb
    · rw [hbegin] at hends
      dsimp only
      rw [Int64.toInt_zero]
      exact ⟨by omega, fun _ => .complete rfl rfl⟩
    · rw [hbegin] at hgoes hposition
      exact ⟨by omega, fun hpaced => .home m hmotion hhoming rfl (by omega)⟩
  | move distanceUm rateUmS m hm =>
    obtain ⟨hperMs, hremaining, hmove⟩ := perMsUm_of_checkedMove hm
    unfold Toward targetUm Paced
    dsimp only
    rw [← stepUm_pos_iff]
    obtain ⟨-, hnext | ⟨hgoes, hposition, remainingUm, hmotion, hrest⟩⟩ :=
      checkedAdvance_move rfl hmove hb
    · obtain ⟨hends, hnone, hposition⟩ := hnext
      rw [hremaining] at hends hposition
      rw [hbegin] at hposition
      exact ⟨by omega, fun _ => .complete hnone (by omega)⟩
    · rw [hremaining] at hgoes hrest
      rw [hbegin] at hposition
      refine ⟨by omega, fun hpaced => .move _ hmotion hmove ?_ ?_⟩
      · dsimp only
        omega
      · dsimp only
        omega

/-- A command that starts without overflow and does not fit is paced and ends out of range, or it
leaves its end. -/
theorem leaving_of_not_fits {command : Command} (hstarts : CheckedStarts name command m)
    (hb : (a.begin m).checkedAdvance = some b)
    (hunfit : ¬ CommandFits a.positionUm.toInt command) :
    b.Leaving ∨ (Paced a.positionUm.toInt command ∧
      ¬ I64.InRange (targetUm a.positionUm.toInt command)) := by
  have hbegin : (a.begin m).positionUm = a.positionUm := rfl
  cases hstarts with
  | home rateUmS m hm =>
    obtain ⟨hperMs, hhoming⟩ := perMsUm_of_checkedHome hm
    unfold CommandFits at hunfit
    obtain ⟨hrange, ⟨hends, -⟩ | ⟨hgoes, hposition, hmotion⟩⟩ := checkedAdvance_home rfl hhoming hb
    · rw [hbegin, hperMs, ← sub_eq_add_neg] at hends hrange
      exact absurd ⟨hrange, by omega⟩ hunfit
    · rw [hbegin, hperMs, ← sub_eq_add_neg] at hgoes hrange
      have haway : stepUm rateUmS < 0 := by
        by_contra hforward
        exact hunfit ⟨hrange, .inl (not_lt.mp hforward)⟩
      exact .inl (.home m hmotion hhoming (by omega) (by rw [hbegin] at hposition; omega))
  | move distanceUm rateUmS m hm =>
    obtain ⟨hperMs, hremaining, hmove⟩ := perMsUm_of_checkedMove hm
    have hproduct := (isSome_checkedMove _ _ _).mp (Option.isSome_of_mem hm)
    unfold CommandFits at hunfit
    obtain ⟨hleast, hnext⟩ := checkedAdvance_move rfl hmove hb
    rw [hremaining] at hleast
    have hstep : stepUm rateUmS ≠ 0 := fun hzero => hunfit ⟨hleast, hproduct, .inl hzero⟩
    obtain ⟨hends, -, hposition⟩ | ⟨hgoes, hposition, remainingUm, hmotion, hrest⟩ := hnext
    · rw [hremaining] at hends hposition
      rw [hbegin] at hposition
      have hrange : I64.InRange (a.positionUm.toInt + distanceUm.toInt) :=
        hposition ▸ ⟨b.positionUm.le_toInt, b.positionUm.toInt_lt⟩
      exact absurd ⟨hleast, hproduct, .inr ⟨hrange, by omega⟩⟩ hunfit
    · rw [hremaining] at hgoes hrest
      by_cases hforward : 0 < stepUm rateUmS
      · refine .inr ⟨.inl (stepUm_pos_iff.mp hforward), fun hrange => hunfit ?_⟩
        exact ⟨hleast, hproduct, .inr ⟨hrange, .inl hforward⟩⟩
      · refine .inl (.move _ hmotion hmove ?_ ?_)
        · dsimp only
          omega
        · dsimp only
          omega

end Steps

/-! ## One axis in a step -/

theorem startedMotion_eq_none {command : Command} (h : commandAxis command ≠ some name) :
    startedMotion name command = none := by
  cases command with
  | heartbeat | setHeaterTarget => rfl
  | home axis rateUmS | move axis distanceUm rateUmS =>
    apply if_neg
    intro heq
    exact h (congrArg some heq)

theorem startedMotion_of_checkedStarts {command : Command} {m : Motion}
    (h : CheckedStarts name command m) : startedMotion name command = some m := by
  cases h with
  | home rateUmS m hm => rw [eq_of_checkedHome hm, startedMotion, if_pos rfl]
  | move distanceUm rateUmS m hm => rw [eq_of_checkedMove hm, startedMotion, if_pos rfl]

/-- Starting without overflow, a command for a known axis starts a motion without overflow. -/
theorem exists_checkedStarts {axes started : List AxisState} {commands : List Command}
    (h : commands.foldlM checkedStart axes = some started)
    (haxis : (axes.find? (·.cfg.name == name)).isSome) {command : Command}
    (hmem : command ∈ commands) (hname : commandAxis command = some name) :
    ∃ m, CheckedStarts name command m := by
  induction commands generalizing axes with
  | nil => cases hmem
  | cons first commands ih =>
    rw [List.foldlM_cons] at h
    obtain ⟨next, hnext, hrest⟩ := Option.bind_eq_some_iff.mp h
    obtain heq | hlater := List.mem_cons.mp hmem
    · subst heq
      obtain ⟨a, ha⟩ := Option.isSome_iff_exists.mp haxis
      have hbegin {motion : Option Motion} (hb : checkedBegin axes name motion = some next) :
          ∃ m, motion = some m := by
        unfold checkedBegin at hb
        rw [ha] at hb
        obtain ⟨m, hm, -⟩ := Option.map_eq_some_iff.mp hb
        exact ⟨m, hm⟩
      cases command with
      | heartbeat | setHeaterTarget => cases hname
      | home axis rateUmS =>
        obtain rfl : axis = name := Option.some.inj hname
        obtain ⟨m, hm⟩ := hbegin hnext
        exact ⟨m, .home rateUmS m hm⟩
      | move axis distanceUm rateUmS =>
        obtain rfl : axis = name := Option.some.inj hname
        obtain ⟨m, hm⟩ := hbegin hnext
        exact ⟨m, .move distanceUm rateUmS m hm⟩
    · refine ih hrest ?_ hlater
      rw [← startAxes_of_checkedStart hnext, find?_startAxes, Option.isSome_map]
      exact haxis

theorem startLast_of_last (a : AxisState) {due : List QueuedCommand}
    {earlier later : List Command} {command : Command}
    (hdue : due.map (·.command) = earlier ++ command :: later) {m : Motion}
    (hm : startedMotion name command = some m)
    (hlater : ∀ other ∈ later, commandAxis other ≠ some name) :
    a.startLast name due = a.begin m := by
  have hnone : later.filterMap (startedMotion name) = [] :=
    List.filterMap_eq_nil_iff.mpr fun other hother => startedMotion_eq_none (hlater other hother)
  rw [AxisState.startLast, hdue, List.filterMap_append, List.filterMap_cons, hm]
  dsimp only
  rw [hnone, List.getLast?_concat]
  rfl

theorem startLast_of_undisturbed (a : AxisState) {due : List QueuedCommand}
    (h : ∀ queued ∈ due, commandAxis queued.command ≠ some name) :
    a.startLast name due = a := by
  have hnone : (due.map (·.command)).filterMap (startedMotion name) = [] := by
    rw [List.filterMap_eq_nil_iff, List.forall_mem_map]
    intro queued hqueued
    exact startedMotion_eq_none (h queued hqueued)
  rw [AxisState.startLast, hnone]
  rfl

/-- A step without overflow advances the axis without overflow. -/
theorem axis?_of_checkedAxes [F64 θ] {c : SimController θ} {axes : List AxisState}
    (h : c.checkedAxes = some axes) {a : AxisState} (ha : c.axis? name = some a) :
    ∃ b, (a.startLast name c.due).checkedAdvance = some b ∧ c.execute.axis? name = some b := by
  obtain ⟨started, hstarted, hadvanced⟩ := Option.bind_eq_some_iff.mp h
  have hfound := find?_foldl_startAxes c.axes name (c.due.map (·.command))
  change c.axes.find? (·.cfg.name == name) = some a at ha
  rw [foldl_of_foldlM_checkedStart hstarted, ha, Option.map_some] at hfound
  obtain ⟨b, hb⟩ := exists_of_mapM_eq_some hadvanced _ (List.mem_of_find?_eq_some hfound)
  refine ⟨b, hb, ?_⟩
  rw [axis?_execute, SimController.axis?, ha, Option.map_some]
  exact congrArg some (advance_of_checkedAdvance hb c.now)

theorem axis?_received (rig : Rig θ) : rig.received.axis? name = rig.controller.axis? name := by
  rw [SimController.axis?, Rig.received, SimController.receive_axes, SimController.axis?]

/-! ## Runs -/

theorem stepCount_cons (event : RigEvent) (events : List RigEvent) :
    stepCount (event :: events) = stepCount events + stepCount [event] := by
  cases event <;> rfl

theorem stepCount_eq_zero {event : RigEvent} (h : event ≠ .step) : stepCount [event] = 0 := by
  cases event with
  | step => exact absurd rfl h
  | _ => rfl

variable [F64 θ] {rig : Rig θ} {a : AxisState} {target : ℤ}

/-- What an event that leaves it alone does to an axis. -/
theorem axis?_step {event : RigEvent} (hundisturbed : Undisturbed name rig event)
    (hfits : NoOverflow rig event) (ha : rig.controller.axis? name = some a) :
    ∃ b, ((rigMachine θ).step rig event).1.controller.axis? name = some b ∧
      (event = .step ∧ a.checkedAdvance = some b ∨ event ≠ .step ∧ b = a) := by
  by_cases hevent : event = .step
  · subst hevent
    obtain ⟨axes, haxes⟩ := Option.isSome_iff_exists.mp (hfits rfl)
    obtain ⟨b, hb, hnext⟩ := axis?_of_checkedAxes haxes ((axis?_received rig).trans ha)
    rw [startLast_of_undisturbed a (hundisturbed.2 rfl)] at hb
    exact ⟨b, hnext, .inl ⟨rfl, hb⟩⟩
  · refine ⟨a, ?_, .inr ⟨hevent, rfl⟩⟩
    have hmoves := rigMoves_step rig event
    generalize ((rigMachine θ).step rig event).1.controller = d,
      ((rigMachine θ).step rig event).2 = m at hmoves ⊢
    cases hmoves with
    | stay | window => exact ha
    | accept bytes incoming =>
      rw [SimController.axis?, SimController.accept_axes]
      exact ha
    | reset => exact absurd rfl hundisturbed.1
    | step => exact absurd rfl hevent

/-- A relation between an axis and the steps it has taken, which an advance preserves, holds after
every run that leaves the axis alone. -/
theorem undisturbed_run {P : AxisState → ℕ → Prop}
    (hadvance : ∀ a b n, P a n → a.checkedAdvance = some b → P b (n + 1))
    {events : List RigEvent} (hundisturbed : (rigMachine θ).Along (Undisturbed name) rig events)
    (hfits : (rigMachine θ).Along NoOverflow rig events)
    (ha : rig.controller.axis? name = some a) {n : ℕ} (h : P a n) :
    ∃ b, ((rigMachine θ).run rig events).1.controller.axis? name = some b ∧
      P b (n + stepCount events) := by
  induction events generalizing rig a n with
  | nil => exact ⟨a, ha, h⟩
  | cons event events ih =>
    obtain ⟨b, hb, hstep⟩ := axis?_step hundisturbed.1 hfits.1 ha
    rw [stepCount_cons, Nat.add_comm (stepCount events), ← Nat.add_assoc]
    obtain ⟨rfl, hadvanced⟩ | ⟨hevent, rfl⟩ := hstep
    · exact ih hundisturbed.2 hfits.2 hb (hadvance a b n h hadvanced)
    · rw [stepCount_eq_zero hevent]
      exact ih hundisturbed.2 hfits.2 hb h

/-- In a run that leaves it alone, an axis on its way takes each step towards its target. -/
theorem heading_toward {events : List RigEvent}
    (hundisturbed : (rigMachine θ).Along (Undisturbed name) rig events)
    (hfits : (rigMachine θ).Along NoOverflow rig events)
    (ha : rig.controller.axis? name = some a) (h : a.Heading target) :
    (rigMachine θ).Along (StepsToward name target) rig events := by
  refine Machine.along_of_invariant
    (P := fun rig => ∃ a, rig.controller.axis? name = some a ∧ a.Heading target)
    ?_ ⟨a, ha, h⟩ (Machine.along_and hundisturbed hfits)
  rintro rig event ⟨a, ha, h⟩ ⟨hleft, hfitsStep⟩
  obtain ⟨b, hb, ⟨rfl, hadvanced⟩ | ⟨hevent, rfl⟩⟩ := axis?_step hleft hfitsStep ha
  · obtain ⟨htoward, hheading, -⟩ := heading_checkedAdvance h hadvanced
    refine ⟨fun _ before hbefore after hafter => ?_, b, hb, hheading⟩
    obtain rfl := Option.some.inj (ha.symm.trans hbefore)
    obtain rfl := Option.some.inj (hb.symm.trans hafter)
    exact htoward
  · exact ⟨fun heq => absurd heq hevent, b, hb, h⟩

/-- After as many steps as were left, it is at its target. -/
theorem heading_completes {events : List RigEvent}
    (hundisturbed : (rigMachine θ).Along (Undisturbed name) rig events)
    (hfits : (rigMachine θ).Along NoOverflow rig events)
    (ha : rig.controller.axis? name = some a) (h : a.Heading target)
    (hmany : a.stepsLeft target ≤ stepCount events) :
    ∃ b, ((rigMachine θ).run rig events).1.controller.axis? name = some b ∧ b.motion = none ∧
      b.positionUm.toInt = target := by
  obtain ⟨b, hb, hheading, hless⟩ := undisturbed_run
    (P := fun b n => b.Heading target ∧ b.stepsLeft target ≤ a.stepsLeft target - n)
    (fun c d n hc hadvanced => by
      obtain ⟨-, hheading, hless⟩ := heading_checkedAdvance hc.1 hadvanced
      exact ⟨hheading, by omega⟩) hundisturbed hfits ha (n := 0) ⟨h, le_rfl⟩
  have hleft : b.stepsLeft target = 0 := by omega
  refine ⟨b, hb, ?_⟩
  cases hheading with
  | complete hnone hposition => exact ⟨hnone, hposition⟩
  | home m hmotion | move m hmotion =>
    rw [AxisState.stepsLeft_of_some hmotion] at hleft
    cases hleft

/-- The step that starts a motion also advances it. -/
theorem axis?_first {command : Command} (ha : rig.controller.axis? name = some a)
    (hlast : StartsLast name rig command) (hfits : NoOverflow rig .step) :
    ∃ m b, CheckedStarts name command m ∧ (a.begin m).checkedAdvance = some b ∧
      ((rigMachine θ).step rig .step).1.controller.axis? name = some b := by
  obtain ⟨earlier, later, hdue, hname, hlater⟩ := hlast
  obtain ⟨axes, haxes⟩ := Option.isSome_iff_exists.mp (hfits rfl)
  obtain ⟨b, hb, hnext⟩ := axis?_of_checkedAxes haxes ((axis?_received rig).trans ha)
  obtain ⟨started, hstarted, -⟩ := Option.bind_eq_some_iff.mp haxes
  have hmem : command ∈ rig.received.due.map (·.command) :=
    hdue ▸ List.mem_append_right _ List.mem_cons_self
  obtain ⟨m, hm⟩ := exists_checkedStarts hstarted
    (Option.isSome_iff_exists.mpr ⟨a, (axis?_received rig).trans ha⟩) hmem hname
  rw [startLast_of_last a hdue (startedMotion_of_checkedStarts hm) hlater] at hb
  exact ⟨m, b, hm, hb, hnext⟩

/-- A motion that a step starts without overflow as the last one on its axis progresses exactly
when its command is paced. -/
theorem progresses_iff_paced {command : Command} (ha : rig.controller.axis? name = some a)
    (hlast : StartsLast name rig command) (hfits : NoOverflow rig .step) :
    Progresses name (targetUm a.positionUm.toInt command) rig ↔
      Paced a.positionUm.toInt command := by
  obtain ⟨m, b, hm, hb, hnext⟩ := axis?_first ha hlast hfits
  obtain ⟨hfirst, hheading⟩ := toward_first_iff hm hb
  constructor
  · intro hprogresses
    exact hfirst.mp ((hprogresses.toward [] trivial ⟨hfits, trivial⟩).1 rfl a ha b hnext)
  · intro hpaced
    have hstep : StepsToward name (targetUm a.positionUm.toInt command) rig .step := by
      intro _ before hbefore after hafter
      obtain rfl := Option.some.inj (ha.symm.trans hbefore)
      obtain rfl := Option.some.inj (hnext.symm.trans hafter)
      exact hfirst.mpr hpaced
    refine ⟨fun events hundisturbed hall => ?_,
      b.stepsLeft (targetUm a.positionUm.toInt command), fun events hundisturbed hall hmany => ?_⟩
    · exact ⟨hstep, heading_toward hundisturbed hall.2 hnext (hheading hpaced)⟩
    · have hdone := heading_completes hundisturbed hall.2 hnext (hheading hpaced) hmany
      exact hdone

/-- A motion that does not fit overflows, where it is left alone. -/
theorem overflows_of_not_fits {command : Command} (ha : rig.controller.axis? name = some a)
    (hlast : StartsLast name rig command)
    (hunfit : ¬ CommandFits a.positionUm.toInt command) :
    ∃ steps, ∀ later,
      (rigMachine θ).Along (Undisturbed name) ((rigMachine θ).step rig .step).1 later →
      steps ≤ stepCount later → ¬ (rigMachine θ).Along NoOverflow rig (.step :: later) := by
  by_cases hfits : NoOverflow rig .step
  · obtain ⟨m, b, hm, hb, hnext⟩ := axis?_first ha hlast hfits
    obtain hleaving | ⟨hpaced, hout⟩ := leaving_of_not_fits hm hb hunfit
    · refine ⟨b.room.toNat + 1, fun later hundisturbed hmany hall => ?_⟩
      obtain ⟨last, -, hlastLeaving, hless⟩ := undisturbed_run
        (P := fun c n => c.Leaving ∧ c.room + n ≤ b.room)
        (fun c d n hc hadvanced => by
          obtain ⟨hleaving, hless⟩ := leaving_checkedAdvance hc.1 hadvanced
          exact ⟨hleaving, by omega⟩)
        hundisturbed hall.2 hnext (n := 0) ⟨hleaving, by omega⟩
      have hroom := hlastLeaving.room_nonneg
      omega
    · refine ⟨b.stepsLeft (targetUm a.positionUm.toInt command),
        fun later hundisturbed hmany hall => hout ?_⟩
      obtain ⟨last, -, -, hposition⟩ := heading_completes hundisturbed hall.2 hnext
        ((toward_first_iff hm hb).2 hpaced) hmany
      rw [← hposition]
      exact ⟨last.positionUm.le_toInt, last.positionUm.toInt_lt⟩
  · exact ⟨0, fun later _ _ hall => hfits hall.1⟩

/-- A controller with an axis at 7 um that has received one frame. -/
def afterFrame (command : Command) : Rig ℤ :=
  ((rigMachine ℤ).step (.new 25000 [] [⟨"x", 7⟩] .default)
    (.frame (CommandFrame.bytes ⟨0, ⟨none, command⟩⟩))).1

theorem progresses_move_thirty : Progresses "x" 37 (afterFrame (.move "x" 30 10000)) := by
  have ha : (afterFrame (.move "x" 30 10000)).controller.axis? "x" =
      some ⟨⟨"x", 7⟩, 7, none⟩ := by decide +kernel
  have hlast : StartsLast "x" (afterFrame (.move "x" 30 10000)) (.move "x" 30 10000) :=
    ⟨[], [], by decide +kernel, rfl, nofun⟩
  exact (progresses_iff_paced ha hlast fun _ => by decide +kernel).mpr (Or.inl (by decide))

/-- At half a millimetre in a second a step goes by 0 micrometres. -/
theorem not_progresses_slow :
    StartsLast "x" (afterFrame (.move "x" 10 500)) (.move "x" 10 500) ∧
      NoOverflow (afterFrame (.move "x" 10 500)) .step ∧
      ¬ Progresses "x" 17 (afterFrame (.move "x" 10 500)) := by
  have hfits : NoOverflow (afterFrame (.move "x" 10 500)) .step := fun _ => by decide +kernel
  refine ⟨⟨[], [], by decide +kernel, rfl, nofun⟩, hfits, fun h => ?_⟩
  have htoward := (h.toward [] trivial ⟨hfits, trivial⟩).1 rfl ⟨⟨"x", 7⟩, 7, none⟩
    (by decide +kernel) ⟨⟨"x", 7⟩, 7, some (moveMotion "x" 10 500)⟩ (by decide +kernel)
  exact absurd (htoward.2 rfl) (by decide)

end Dryer.Simulator
