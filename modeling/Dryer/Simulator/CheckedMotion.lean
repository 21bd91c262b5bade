import Dryer.Simulator.AxisMotion

/-!
# Motion without overflow

The operations that start and advance motions, each of which fails when it leaves 64 bits. In a
run that starts only motions of which the rate is signed as it is read, and the end is in range,
none of them fails.
-/
namespace Dryer.Simulator
open Library ControlProtocol

variable {θ : Type}

/-! ## Checked operations -/

def checkedHome (axis : String) (rateUmS : UInt64) : Option Motion :=
  (I64.checkedNeg (rateUmS.toInt64 / 1000)).map fun perMsUm =>
    { homeMotion axis rateUmS with perMsUm }

def checkedMove (axis : String) (distanceUm : Int64) (rateUmS : UInt64) : Option Motion :=
  (I64.checkedMul (I64.signum distanceUm) rateUmS.toInt64).map fun scaled =>
    { moveMotion axis distanceUm rateUmS with perMsUm := scaled / 1000 }

/-- Nothing is computed for an unknown axis. -/
def checkedBegin (axes : List AxisState) (axis : String) (motion : Option Motion) :
    Option (List AxisState) :=
  match axes.find? (·.cfg.name == axis) with
  | none => some axes
  | some _ => motion.map fun m => modifyFirst (·.cfg.name == axis) (AxisState.begin · m) axes

def checkedStart (axes : List AxisState) : Command → Option (List AxisState)
  | .home axis rateUmS => checkedBegin axes axis (checkedHome axis rateUmS)
  | .move axis distanceUm rateUmS => checkedBegin axes axis (checkedMove axis distanceUm rateUmS)
  | _ => some axes

def AxisState.checkedAdvance (a : AxisState) : Option AxisState :=
  match a.motion with
  | none => some a
  | some m =>
    if m.homing then
      (I64.checkedAdd a.positionUm m.perMsUm).map fun positionUm =>
        if positionUm ≤ 0 then { a with positionUm := 0, motion := none }
        else { a with positionUm }
    else do
      let perMsAbs ← I64.checkedAbs m.perMsUm
      let remainingAbs ← I64.checkedAbs m.remainingUm
      let step := if perMsAbs ≥ remainingAbs then m.remainingUm else m.perMsUm
      let positionUm ← I64.checkedAdd a.positionUm step
      let remainingUm ← I64.checkedSub m.remainingUm step
      return if remainingUm = 0 then { a with positionUm, motion := none }
        else { a with positionUm, motion := some { m with remainingUm } }

/-- The axes after the motions of a step. -/
def SimController.checkedAxes (c : SimController θ) : Option (List AxisState) := do
  let started ← (c.due.map (·.command)).foldlM checkedStart c.axes
  started.mapM AxisState.checkedAdvance

/-- No operation of the motions of a step overflows. -/
def NoOverflow (rig : Rig θ) (event : RigEvent) : Prop :=
  event = .step → rig.received.checkedAxes.isSome

/-! ## Checked operations that succeed -/

theorem advance_of_checkedAdvance {a b : AxisState} (h : a.checkedAdvance = some b) (now : Tick) :
    (a.advance now).1 = b := by
  cases hm : a.motion with
  | none =>
    simp only [AxisState.checkedAdvance, hm] at h
    simp only [AxisState.advance, hm]
    exact Option.some.inj h
  | some m =>
    simp only [AxisState.checkedAdvance, hm] at h
    simp only [AxisState.advance, hm]
    split at h
    · rename_i hhoming
      obtain ⟨positionUm, hposition, hb⟩ := Option.map_eq_some_iff.mp h
      rw [if_pos hhoming, I64.eq_of_checkedAdd hposition, ← hb]
      split <;> rfl
    · rename_i hmove
      obtain ⟨perMsAbs, hperMs, h⟩ := Option.bind_eq_some_iff.mp h
      obtain ⟨remainingAbs, hremaining, h⟩ := Option.bind_eq_some_iff.mp h
      obtain ⟨positionUm, hposition, h⟩ := Option.bind_eq_some_iff.mp h
      obtain ⟨remainingUm, hrest, hb⟩ := Option.bind_eq_some_iff.mp h
      obtain rfl := Option.some.inj hb
      rw [if_neg hmove, I64.eq_of_checkedAbs hperMs, I64.eq_of_checkedAbs hremaining,
        I64.eq_of_checkedAdd hposition, I64.eq_of_checkedSub hrest]
      split <;> rfl

theorem eq_of_checkedHome {axis : String} {rateUmS : UInt64} {m : Motion}
    (h : checkedHome axis rateUmS = some m) : m = homeMotion axis rateUmS := by
  obtain ⟨perMsUm, hperMs, rfl⟩ := Option.map_eq_some_iff.mp h
  rw [← I64.eq_of_checkedNeg hperMs]
  rfl

theorem eq_of_checkedMove {axis : String} {distanceUm : Int64} {rateUmS : UInt64} {m : Motion}
    (h : checkedMove axis distanceUm rateUmS = some m) :
    m = moveMotion axis distanceUm rateUmS := by
  obtain ⟨scaled, hscaled, rfl⟩ := Option.map_eq_some_iff.mp h
  rw [← I64.eq_of_checkedMul hscaled]
  rfl

theorem startAxes_of_checkedStart {axes started : List AxisState} {command : Command}
    (h : checkedStart axes command = some started) :
    SimController.startAxes axes command = started := by
  have hbegin {axis : String} {motion : Option Motion} {expected : Motion}
      (hmotion : ∀ m, motion = some m → m = expected)
      (h : checkedBegin axes axis motion = some started) :
      modifyFirst (·.cfg.name == axis) (AxisState.begin · expected) axes = started := by
    unfold checkedBegin at h
    split at h
    · rename_i hnone
      rw [modifyFirst_of_find?_eq_none hnone]
      exact Option.some.inj h
    · obtain ⟨m, hm, hstarted⟩ := Option.map_eq_some_iff.mp h
      rw [← hmotion m hm]
      exact hstarted
  cases command with
  | heartbeat | setHeaterTarget => exact Option.some.inj h
  | home axis rateUmS => exact hbegin (fun _ hm => eq_of_checkedHome hm) h
  | move axis distanceUm rateUmS => exact hbegin (fun _ hm => eq_of_checkedMove hm) h

theorem foldl_of_foldlM_checkedStart {axes started : List AxisState} {commands : List Command}
    (h : commands.foldlM checkedStart axes = some started) :
    commands.foldl SimController.startAxes axes = started := by
  induction commands generalizing axes with
  | nil => exact Option.some.inj h
  | cons command commands ih =>
    rw [List.foldlM_cons] at h
    obtain ⟨next, hnext, hrest⟩ := Option.bind_eq_some_iff.mp h
    rw [List.foldl_cons, startAxes_of_checkedStart hnext]
    exact ih hrest

/-- Where nothing overflows, the axes are those of the step. -/
theorem axes_of_checkedAxes [F64 θ] {c : SimController θ} {axes : List AxisState}
    (h : c.checkedAxes = some axes) : c.execute.axes = axes := by
  obtain ⟨started, hstarted, hadvanced⟩ := Option.bind_eq_some_iff.mp h
  obtain ⟨_, _, hexecute, -⟩ := c.execute_eq
  rw [hexecute, foldl_of_foldlM_checkedStart hstarted]
  exact eq_map_of_mapM_eq_some hadvanced fun a b hb => advance_of_checkedAdvance hb c.now

/-! ## Commands that fit -/

/-- The micrometres of a step at a rate. Rates from `2 ^ 63` on are read as negative. -/
def stepUm (rateUmS : UInt64) : ℤ :=
  if rateUmS.toNat < 2 ^ 63 then (rateUmS.toNat / 1000 : ℕ)
  else -((2 ^ 64 - rateUmS.toNat) / 1000 : ℕ)

/-- A motion that a command starts at a position stays in range up to its end. -/
def CommandFits (positionUm : ℤ) : Command → Prop
  | .home _ rateUmS =>
    I64.InRange (positionUm - stepUm rateUmS) ∧
      (0 ≤ stepUm rateUmS ∨ positionUm ≤ stepUm rateUmS)
  | .move _ distanceUm rateUmS =>
    distanceUm.toInt ≠ -2 ^ 63 ∧ ¬ (distanceUm.toInt < 0 ∧ rateUmS.toNat = 2 ^ 63) ∧
      (stepUm rateUmS = 0 ∨ I64.InRange (positionUm + distanceUm.toInt) ∧
        (0 < stepUm rateUmS ∨ (distanceUm.toInt.natAbs : ℤ) ≤ -stepUm rateUmS))
  | _ => True

instance (positionUm : ℤ) : DecidablePred (CommandFits positionUm)
  | .home .. => inferInstanceAs (Decidable (_ ∧ _))
  | .move .. => inferInstanceAs (Decidable (_ ∧ _))
  | .heartbeat | .setHeaterTarget .. => inferInstanceAs (Decidable True)

/-- The axis that a command moves. -/
def commandAxis : Command → Option String
  | .home axis _ | .move axis _ _ => some axis
  | _ => none

/-- What the command starts fits, from where its axis is. -/
def FitsIn (axes : List AxisState) (command : Command) : Prop :=
  ∀ name ∈ commandAxis command, ∀ a ∈ axes.find? (·.cfg.name == name),
    CommandFits a.positionUm.toInt command

instance (axes : List AxisState) (command : Command) : Decidable (FitsIn axes command) :=
  inferInstanceAs (Decidable (∀ name ∈ commandAxis command, ∀ a ∈ axes.find? (·.cfg.name == name),
    CommandFits a.positionUm.toInt command))

def StartsFit (rig : Rig θ) (event : RigEvent) : Prop :=
  event = .step → ∀ queued ∈ rig.received.due, FitsIn rig.received.axes queued.command

/-- From a position the motion stays in range up to its end. -/
structure Motion.Safe (m : Motion) (positionUm : ℤ) : Prop where
  slow : -2 ^ 62 < m.perMsUm.toInt ∧ m.perMsUm.toInt < 2 ^ 62
  home : m.homing = true → I64.InRange (positionUm + m.perMsUm.toInt) ∧
    (m.perMsUm.toInt ≤ 0 ∨ positionUm + m.perMsUm.toInt ≤ 0)
  move : m.homing = false → m.remainingUm.toInt ≠ -2 ^ 63 ∧
    (m.perMsUm.toInt = 0 ∨ I64.InRange (positionUm + m.remainingUm.toInt) ∧
      (m.remainingUm.toInt.natAbs ≤ m.perMsUm.toInt.natAbs ∨
        (0 < m.perMsUm.toInt ∧ 0 ≤ m.remainingUm.toInt) ∨
        (m.perMsUm.toInt < 0 ∧ m.remainingUm.toInt ≤ 0)))

def AxisState.Safe (a : AxisState) : Prop := ∀ m, a.motion = some m → m.Safe a.positionUm.toInt

/-! ## Rates -/

theorem toInt_div_thousand_eq (value : Int64) : (value / 1000).toInt = value.toInt.tdiv 1000 :=
  Int64.toInt_div_of_ne_right _ _ (by decide)

theorem toInt_toInt64_div_thousand (rateUmS : UInt64) :
    (rateUmS.toInt64 / 1000).toInt = stepUm rateUmS := by
  have hlt := rateUmS.toNat_lt
  rw [toInt_div_thousand_eq, U64.toInt_toInt64_eq, stepUm]
  split
  · rw [Int.tdiv_eq_ediv_of_nonneg (by omega)]
    omega
  · have hflip : ((rateUmS.toNat : ℤ) - 2 ^ 64).tdiv 1000 =
        -((2 ^ 64 - (rateUmS.toNat : ℤ)).tdiv 1000) := by
      rw [← Int.neg_tdiv, neg_sub]
    rw [hflip, Int.tdiv_eq_ediv_of_nonneg (by omega)]
    omega

theorem stepUm_bounds (rateUmS : UInt64) : -2 ^ 62 < stepUm rateUmS ∧ stepUm rateUmS < 2 ^ 62 := by
  have hlt := rateUmS.toNat_lt
  unfold stepUm
  split <;> omega

theorem perMsUm_of_checkedHome {axis : String} {rateUmS : UInt64} {m : Motion}
    (h : checkedHome axis rateUmS = some m) :
    m.perMsUm.toInt = -stepUm rateUmS ∧ m.homing = true := by
  obtain ⟨perMsUm, hperMs, rfl⟩ := Option.map_eq_some_iff.mp h
  refine ⟨?_, rfl⟩
  dsimp only
  rw [I64.ofInt?_eq_some.mp hperMs, toInt_toInt64_div_thousand]

theorem exists_checkedHome (axis : String) (rateUmS : UInt64) :
    ∃ m, checkedHome axis rateUmS = some m := by
  have hbounds := stepUm_bounds rateUmS
  have hrange : I64.InRange (-(rateUmS.toInt64 / 1000).toInt) := by
    rw [toInt_toInt64_div_thousand]
    constructor <;> omega
  obtain ⟨perMsUm, hperMs, -⟩ := I64.exists_of_inRange hrange
  exact ⟨_, Option.map_eq_some_iff.mpr ⟨perMsUm, hperMs, rfl⟩⟩

theorem toInt_signum (value : Int64) : (I64.signum value).toInt = value.toInt.sign := by
  unfold I64.signum
  split
  · rename_i hzero
    rw [hzero]
    rfl
  · rename_i hne
    have hnonzero : value.toInt ≠ 0 := by
      intro h
      exact hne (Int64.toInt_inj.mp h)
    split
    · rename_i hneg
      rw [Int64.lt_iff_toInt_lt, Int64.toInt_zero] at hneg
      rw [Int.sign_eq_neg_one_of_neg hneg]
      rfl
    · rename_i hpos
      rw [Int64.lt_iff_toInt_lt, Int64.toInt_zero] at hpos
      rw [Int.sign_eq_one_of_pos (by omega)]
      rfl

/-- A step of a move has the sign of its distance, where the rate is read as positive. -/
theorem perMsUm_of_checkedMove {axis : String} {distanceUm : Int64} {rateUmS : UInt64}
    {m : Motion} (h : checkedMove axis distanceUm rateUmS = some m) :
    (0 < distanceUm.toInt ∧ m.perMsUm.toInt = stepUm rateUmS ∨
        distanceUm.toInt = 0 ∧ m.perMsUm.toInt = 0 ∨
        distanceUm.toInt < 0 ∧ m.perMsUm.toInt = -stepUm rateUmS) ∧
      m.remainingUm = distanceUm ∧ m.homing = false := by
  obtain ⟨scaled, hscaled, rfl⟩ := Option.map_eq_some_iff.mp h
  refine ⟨?_, rfl, rfl⟩
  have hvalue := I64.ofInt?_eq_some.mp hscaled
  rw [toInt_signum] at hvalue
  have hstep : rateUmS.toInt64.toInt.tdiv 1000 = stepUm rateUmS := by
    rw [← toInt_toInt64_div_thousand, toInt_div_thousand_eq]
  dsimp only
  rw [toInt_div_thousand_eq, hvalue]
  obtain hsign | hsign | hsign := Int.sign_trichotomy distanceUm.toInt
  · rw [hsign, one_mul, hstep]
    exact .inl ⟨Int.sign_eq_one_iff_pos.mp hsign, rfl⟩
  · rw [hsign, zero_mul, Int.zero_tdiv]
    exact .inr (.inl ⟨Int.sign_eq_zero_iff_zero.mp hsign, rfl⟩)
  · rw [hsign, neg_one_mul, Int.neg_tdiv, hstep]
    exact .inr (.inr ⟨Int.sign_eq_neg_one_iff_neg.mp hsign, rfl⟩)

/-- Only the product of a negative sign and the least rate overflows. -/
theorem isSome_checkedMove (axis : String) (distanceUm : Int64) (rateUmS : UInt64) :
    (checkedMove axis distanceUm rateUmS).isSome ↔
      ¬ (distanceUm.toInt < 0 ∧ rateUmS.toNat = 2 ^ 63) := by
  have hlt := rateUmS.toNat_lt
  rw [checkedMove, Option.isSome_map, I64.checkedMul, I64.isSome_ofInt?, toInt_signum,
    U64.toInt_toInt64_eq]
  unfold I64.InRange
  obtain hsign | hsign | hsign := Int.sign_trichotomy distanceUm.toInt
  · have hpos := Int.sign_eq_one_iff_pos.mp hsign
    rw [hsign]
    split <;> omega
  · have hzero := Int.sign_eq_zero_iff_zero.mp hsign
    rw [hsign]
    omega
  · have hneg := Int.sign_eq_neg_one_iff_neg.mp hsign
    rw [hsign]
    split <;> omega

/-! ## Safe axes -/

theorem safe_of_home {positionUm : ℤ} {axis : String} {rateUmS : UInt64} {m : Motion}
    (hfits : CommandFits positionUm (.home axis rateUmS))
    (hm : checkedHome axis rateUmS = some m) : m.Safe positionUm := by
  obtain ⟨hrange, hdirection⟩ := hfits
  have hbounds := stepUm_bounds rateUmS
  obtain ⟨hperMs, hhoming⟩ := perMsUm_of_checkedHome hm
  refine ⟨by omega, fun _ => ?_, fun hmove => ?_⟩
  · rw [hperMs, ← sub_eq_add_neg]
    exact ⟨hrange, by omega⟩
  · rw [hhoming] at hmove
    cases hmove

theorem safe_of_move {positionUm : ℤ} {axis : String} {distanceUm : Int64} {rateUmS : UInt64}
    {m : Motion} (hfits : CommandFits positionUm (.move axis distanceUm rateUmS))
    (hm : checkedMove axis distanceUm rateUmS = some m) : m.Safe positionUm := by
  obtain ⟨hleast, -, hend⟩ := hfits
  have hbounds := stepUm_bounds rateUmS
  obtain ⟨hperMs, hremaining, hmove⟩ := perMsUm_of_checkedMove hm
  refine ⟨by omega, fun hhoming => ?_, fun _ => ?_⟩
  · rw [hmove] at hhoming
    cases hhoming
  · unfold I64.InRange at hend ⊢
    rw [hremaining]
    omega

/-- A move that is safe takes a step in range: all that remains, or towards the end. -/
theorem Motion.Safe.move_step {m : Motion} {positionUm : Int64} (h : m.Safe positionUm.toInt)
    (hmove : m.homing = false) {step : ℤ}
    (hstep : step = if m.remainingUm.toInt.natAbs ≤ m.perMsUm.toInt.natAbs then
      m.remainingUm.toInt else m.perMsUm.toInt) :
    I64.InRange (positionUm.toInt + step) ∧ I64.InRange (m.remainingUm.toInt - step) := by
  have hlo := m.remainingUm.le_toInt
  have hhi := m.remainingUm.toInt_lt
  have hleast := positionUm.le_toInt
  have hmost := positionUm.toInt_lt
  obtain ⟨-, hend⟩ := h.move hmove
  unfold I64.InRange at hend ⊢
  split at hstep <;> omega

/-- What remains after a step of a safe move is safe. -/
theorem Motion.Safe.after_step {m : Motion} {positionUm : ℤ} (h : m.Safe positionUm)
    (hmove : m.homing = false) (hgoes : ¬ m.remainingUm.toInt.natAbs ≤ m.perMsUm.toInt.natAbs)
    {remainingUm : Int64} (hremaining : remainingUm.toInt = m.remainingUm.toInt - m.perMsUm.toInt) :
    Motion.Safe { m with remainingUm } (positionUm + m.perMsUm.toInt) := by
  obtain ⟨hleast, hend⟩ := h.move hmove
  have hlo := m.remainingUm.le_toInt
  have hhi := m.remainingUm.toInt_lt
  refine ⟨h.slow, fun hhoming => ?_, fun _ => ?_⟩
  · rw [hmove] at hhoming
    cases hhoming
  · unfold I64.InRange at hend ⊢
    dsimp only
    rw [hremaining]
    omega

section Advance

variable {a : AxisState} {m : Motion}

/-- A safe homing advances without overflow. It is still safe, or it has ended. -/
theorem safe_checkedAdvance_homing (hm : a.motion = some m) (hsafe : m.Safe a.positionUm.toInt)
    (hhoming : m.homing = true) : ∃ b, a.checkedAdvance = some b ∧ b.Safe := by
  obtain ⟨hslowLo, hslowHi⟩ := hsafe.slow
  obtain ⟨hrange, hdirection⟩ := hsafe.home hhoming
  obtain ⟨positionUm, hposition, hvalue⟩ := I64.exists_of_inRange hrange
  simp only [AxisState.checkedAdvance, hm, hhoming, if_true]
  refine ⟨_, Option.map_eq_some_iff.mpr ⟨positionUm, hposition, rfl⟩, ?_⟩
  split
  · rintro next ⟨⟩
  · rename_i hpositive
    rw [Int64.le_iff_toInt_le, Int64.toInt_zero] at hpositive
    have hhi := positionUm.toInt_lt
    rintro next ⟨⟩
    refine ⟨hsafe.slow, fun _ => ?_, fun hmove => ?_⟩
    · unfold I64.InRange
      dsimp only
      omega
    · rw [hhoming] at hmove
      cases hmove

/-- A safe move advances by the step it has left, without overflow. It is still safe, or it has
ended. -/
theorem safe_checkedAdvance_move (hm : a.motion = some m) (hsafe : m.Safe a.positionUm.toInt)
    (hmove : m.homing = false) : ∃ b, a.checkedAdvance = some b ∧ b.Safe := by
  obtain ⟨hslowLo, hslowHi⟩ := hsafe.slow
  have hperMsLeast : m.perMsUm.toInt ≠ -2 ^ 63 := by omega
  obtain ⟨perMsAbs, hperMsAbs⟩ := I64.exists_checkedAbs hperMsLeast
  obtain ⟨remainingAbs, hremainingAbs⟩ := I64.exists_checkedAbs (hsafe.move hmove).1
  have hends : perMsAbs ≥ remainingAbs ↔
      m.remainingUm.toInt.natAbs ≤ m.perMsUm.toInt.natAbs := by
    rw [ge_iff_le, Int64.le_iff_toInt_le, I64.toInt_of_checkedAbs hperMsAbs,
      I64.toInt_of_checkedAbs hremainingAbs, Int.ofNat_le]
  obtain ⟨step, hstep⟩ : ∃ step, step =
      if perMsAbs ≥ remainingAbs then m.remainingUm else m.perMsUm := ⟨_, rfl⟩
  have hstepUm : step.toInt = if m.remainingUm.toInt.natAbs ≤ m.perMsUm.toInt.natAbs then
      m.remainingUm.toInt else m.perMsUm.toInt := by
    rw [hstep, apply_ite Int64.toInt]
    exact if_congr hends rfl rfl
  obtain ⟨hinPosition, hinRemaining⟩ := hsafe.move_step hmove hstepUm
  obtain ⟨positionUm, hposition, hpositionUm⟩ := I64.exists_of_inRange hinPosition
  obtain ⟨remainingUm, hrest, hrestUm⟩ := I64.exists_of_inRange hinRemaining
  refine ⟨if remainingUm = 0 then { a with positionUm, motion := none }
    else { a with positionUm, motion := some { m with remainingUm } }, ?_, ?_⟩
  · simp only [AxisState.checkedAdvance, hm, hmove, Bool.false_eq_true, if_false]
    apply Option.bind_eq_some_iff.mpr
    refine ⟨perMsAbs, hperMsAbs, Option.bind_eq_some_iff.mpr ⟨remainingAbs, hremainingAbs, ?_⟩⟩
    rw [← hstep]
    apply Option.bind_eq_some_iff.mpr
    exact ⟨positionUm, hposition, Option.bind_eq_some_iff.mpr ⟨remainingUm, hrest, rfl⟩⟩
  · split
    · rintro next ⟨⟩
    · rename_i hgoes
      rintro next ⟨⟩
      have hnot : ¬ m.remainingUm.toInt.natAbs ≤ m.perMsUm.toInt.natAbs := by
        intro hall
        rw [if_pos hall] at hstepUm
        apply hgoes
        rw [← Int64.toInt_inj, hrestUm, hstepUm, sub_self]
        rfl
      rw [if_neg hnot] at hstepUm
      rw [hstepUm] at hrestUm hpositionUm
      rw [hpositionUm]
      exact hsafe.after_step hmove hnot hrestUm

/-- A safe axis advances without overflow, and stays safe. -/
theorem safe_checkedAdvance (h : a.Safe) : ∃ b, a.checkedAdvance = some b ∧ b.Safe := by
  cases hm : a.motion with
  | none =>
    refine ⟨a, ?_, h⟩
    simp only [AxisState.checkedAdvance, hm]
  | some m =>
    cases hhoming : m.homing with
    | true => exact safe_checkedAdvance_homing hm (h m hm) hhoming
    | false => exact safe_checkedAdvance_move hm (h m hm) hhoming

end Advance

/-! ## Runs -/

/-- A safe list of axes starts a command that fits without overflow, and stays safe. -/
theorem exists_checkedStart {axes : List AxisState} {command : Command}
    (hsafe : ∀ a ∈ axes, a.Safe) (hfits : FitsIn axes command) :
    ∃ started, checkedStart axes command = some started ∧ ∀ a ∈ started, a.Safe := by
  have hbegin {axis : String} {motion : Option Motion}
      (hmotion : ∀ a ∈ axes.find? (·.cfg.name == axis),
        ∃ m, motion = some m ∧ m.Safe a.positionUm.toInt) :
      ∃ started, checkedBegin axes axis motion = some started ∧ ∀ a ∈ started, a.Safe := by
    unfold checkedBegin
    split
    · exact ⟨axes, rfl, hsafe⟩
    · rename_i found hfound
      obtain ⟨m, rfl, hm⟩ := hmotion found hfound
      refine ⟨_, rfl, fun a ha => ?_⟩
      obtain hold | ⟨b, hb, rfl⟩ := mem_modifyFirst ha
      · exact hsafe a hold
      · obtain rfl := Option.some.inj (hfound.symm.trans hb)
        rintro next ⟨⟩
        exact hm
  cases command with
  | heartbeat | setHeaterTarget => exact ⟨axes, rfl, hsafe⟩
  | home axis rateUmS =>
    apply hbegin
    intro a ha
    obtain ⟨m, hm⟩ := exists_checkedHome axis rateUmS
    exact ⟨m, hm, safe_of_home (hfits axis rfl a ha) hm⟩
  | move axis distanceUm rateUmS =>
    apply hbegin
    intro a ha
    have hcommand := hfits axis rfl a ha
    obtain ⟨m, hm⟩ := Option.isSome_iff_exists.mp
      ((isSome_checkedMove axis distanceUm rateUmS).mpr hcommand.2.1)
    exact ⟨m, hm, safe_of_move hcommand hm⟩

/-- To start a motion moves nothing. -/
theorem FitsIn.startAxes {axes : List AxisState} {command : Command} (h : FitsIn axes command)
    (other : Command) : FitsIn (SimController.startAxes axes other) command := by
  intro name hname a ha
  rw [find?_startAxes, Option.mem_map] at ha
  obtain ⟨b, hb, rfl⟩ := ha
  have hposition : ((startedMotion name other).elim b b.begin).positionUm = b.positionUm := by
    cases startedMotion name other <;> rfl
  rw [hposition]
  exact h name hname b hb

theorem exists_foldlM_checkedStart {axes : List AxisState} {commands : List Command}
    (hsafe : ∀ a ∈ axes, a.Safe) (hfits : ∀ command ∈ commands, FitsIn axes command) :
    ∃ started, commands.foldlM checkedStart axes = some started ∧ ∀ a ∈ started, a.Safe := by
  induction commands generalizing axes with
  | nil => exact ⟨axes, rfl, hsafe⟩
  | cons command commands ih =>
    obtain ⟨hhead, htail⟩ := List.forall_mem_cons.mp hfits
    obtain ⟨next, hnext, hnextSafe⟩ := exists_checkedStart hsafe hhead
    obtain ⟨started, hstarted, hstartedSafe⟩ := ih hnextSafe fun other hother => by
      rw [← startAxes_of_checkedStart hnext]
      exact (htail other hother).startAxes command
    rw [List.foldlM_cons]
    exact ⟨started, Option.bind_eq_some_iff.mpr ⟨next, hnext, hstarted⟩, hstartedSafe⟩

/-- A step that starts what fits on safe axes does not overflow, and keeps them safe. -/
theorem exists_checkedAxes {c : SimController θ} (hsafe : ∀ a ∈ c.axes, a.Safe)
    (hfits : ∀ queued ∈ c.due, FitsIn c.axes queued.command) :
    ∃ axes, c.checkedAxes = some axes ∧ ∀ a ∈ axes, a.Safe := by
  have hcommands : ∀ command ∈ c.due.map (·.command), FitsIn c.axes command :=
    List.forall_mem_map.mpr hfits
  obtain ⟨started, hstarted, hstartedSafe⟩ := exists_foldlM_checkedStart hsafe hcommands
  obtain ⟨axes, haxes, haxesSafe⟩ := exists_mapM_eq_some fun a ha =>
    safe_checkedAdvance (hstartedSafe a ha)
  exact ⟨axes, Option.bind_eq_some_iff.mpr ⟨started, hstarted, haxes⟩, haxesSafe⟩

theorem safe_step [F64 θ] {rig : Rig θ} {event : RigEvent}
    (hsafe : ∀ a ∈ rig.controller.axes, a.Safe) (hfits : StartsFit rig event) :
    NoOverflow rig event ∧
      ∀ a ∈ ((rigMachine θ).step rig event).1.controller.axes, a.Safe := by
  by_cases hevent : event = .step
  · subst hevent
    have hreceived : ∀ a ∈ rig.received.axes, a.Safe := by
      rw [Rig.received, SimController.receive_axes]
      exact hsafe
    obtain ⟨axes, haxes, haxesSafe⟩ := exists_checkedAxes hreceived (hfits rfl)
    refine ⟨fun _ => Option.isSome_iff_exists.mpr ⟨axes, haxes⟩, ?_⟩
    have hexecute : ((rigMachine θ).step rig .step).1.controller = rig.received.execute := rfl
    rw [hexecute, axes_of_checkedAxes haxes]
    exact haxesSafe
  · refine ⟨fun heq => absurd heq hevent, ?_⟩
    have hmoves := rigMoves_step rig event
    generalize ((rigMachine θ).step rig event).1.controller = d,
      ((rigMachine θ).step rig event).2 = m at hmoves ⊢
    cases hmoves with
    | stay | window => exact hsafe
    | accept bytes incoming =>
      rw [SimController.accept_axes]
      exact hsafe
    | reset =>
      intro a ha
      obtain ⟨b, -, rfl⟩ := List.mem_map.mp ha
      rintro m ⟨⟩
    | step => exact absurd rfl hevent

/-- Over every run in which each step starts only motions that fit, no operation of a motion
overflows. -/
theorem noOverflow_of_startsFit [F64 θ] (ambientMilliC : Int64) (heaters : List HeaterCfg)
    (axes : List AxisCfg) (cfg : TransportConfig) {events : List RigEvent}
    (hfits : (rigMachine θ).Along StartsFit (.new ambientMilliC heaters axes cfg) events) :
    (rigMachine θ).Along NoOverflow (.new ambientMilliC heaters axes cfg) events := by
  refine Machine.along_of_invariant (P := fun rig => ∀ a ∈ rig.controller.axes, a.Safe)
    (fun rig event hsafe hstarts => safe_step hsafe hstarts) ?_ hfits
  intro a ha
  obtain ⟨_, -, rfl⟩ := List.mem_map.mp ha
  rintro m ⟨⟩

/-- An axis at 7 um that moves by 30 um and then homes. -/
theorem noOverflow_move_then_home :
    let events : List RigEvent :=
      [.frame (CommandFrame.bytes ⟨0, ⟨none, .move "x" 30 10000⟩⟩), .step,
        .frame (CommandFrame.bytes ⟨1, ⟨none, .home "x" 20000⟩⟩), .step, .step]
    (rigMachine ℤ).Along NoOverflow (.new 25000 [] [⟨"x", 7⟩] .default) events :=
  noOverflow_of_startsFit 25000 [] [⟨"x", 7⟩] .default
    ⟨nofun, fun _ => by decide +kernel, nofun, fun _ => by decide +kernel,
      fun _ => by decide +kernel, trivial⟩

/-- The magnitude of the least distance has no signed integer. -/
theorem leastDistance_overflows :
    let frame := CommandFrame.bytes ⟨0, ⟨none, .move "x" Int64.minValue 1000⟩⟩
    wireCommand frame = some ⟨none, .move "x" Int64.minValue 1000⟩ ∧
      ¬ (rigMachine ℤ).Along NoOverflow (.new 25000 [] [⟨"x", 0⟩] .default)
        [.frame frame, .step] := by
  refine ⟨by decide +kernel, fun h => ?_⟩
  have hoverflows : ¬ ((rigMachine ℤ).step (.new 25000 [] [⟨"x", 0⟩] .default)
      (.frame (CommandFrame.bytes ⟨0, ⟨none, .move "x" Int64.minValue 1000⟩⟩))
      ).1.received.checkedAxes.isSome := by decide +kernel
  exact hoverflows (h.2.1 rfl)

end Dryer.Simulator
