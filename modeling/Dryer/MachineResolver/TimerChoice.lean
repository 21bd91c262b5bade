import Dryer.MachineResolver.Requests
import Dryer.MachineResolver.ValidGraphs

/-!
# Timers that a socket offers

A step pin may offer several timer channels. Allocation looks at the first of them only, so a
socket is refused for a timer although another channel of its step pin is free.
-/
namespace Dryer.MachineResolver
open Library MachineSchema PackageModel

section Timers

variable (inputs : AllocationInputs)

/-- The connector that a target names, with its controller. -/
def socketOf (target : String) : Option (String × Connector) :=
  (splitOnce target '.').bind fun (ctrl, port) =>
    (inputs.boards[ctrl]?.bind fun board => board.connectors[port]?).map (ctrl, ·)

/-- The timer channels among the functions of a step pin, in the order of the chip. -/
def stepTimers (ctrl : String) (connector : Connector) : List String :=
  ((inputs.chips[ctrl]?.bind fun chip => connector.pins["step"]?.bind fun pin =>
    chip.pinFunctions[pin]?).getD []).filter fun f => startsWith f "tim"

/-- Every timer channel of the step pin is reserved on the controller. -/
def TimersTaken (state : Allocation) (ctrl : String) (connector : Connector) : Prop :=
  ∀ tok ∈ stepTimers inputs ctrl connector, timerKeyOf (ctrl, tok) ∈ state.timerClaims

/-- The first timer channel is reserved only where all are. -/
def FirstTimerDecides (state : Allocation) (ctrl : String) (connector : Connector) : Prop :=
  ∀ first ∈ (stepTimers inputs ctrl connector).head?,
    timerKeyOf (ctrl, first) ∈ state.timerClaims → TimersTaken inputs state ctrl connector

variable {inputs}

theorem getElem?_step_derivePinCapabilities (chip : Option ChipPackageFile)
    (connector : Connector) : (derivePinCapabilities chip connector)["step"]? =
      chip.bind fun chip => connector.pins["step"]?.bind fun pin => chip.pinFunctions[pin]? := by
  cases chip with
  | none => simp [derivePinCapabilities]
  | some chip =>
    have hpins : (connector.pins.filterMap fun _ pin => chip.pinFunctions[pin]?)["step"]? =
        connector.pins["step"]?.bind fun pin => chip.pinFunctions[pin]? := by
      apply Option.ext
      intro funcs
      rw [getElem?_filterMap_eq_some, Option.bind_eq_some_iff]
    unfold derivePinCapabilities
    dsimp only [Option.bind_some]
    split
    · rename_i hempty
      have hnone (pin : String) : chip.pinFunctions[pin]? = none :=
        Std.TreeMap.getElem?_of_isEmpty hempty
      simp [hnone]
    · split
      · rw [Std.TreeMap.getElem?_insert, hpins]
        simp
      · exact hpins

theorem timerFunction_eq_head? (funcs : List String) :
    timerFunction funcs = (funcs.filter fun f => startsWith f "tim").head? := by
  rw [timerFunction, List.head?_filter]

/-- A socket that is refused, by the functions of its step pin. -/
def RefusesTimer (state : Allocation) (ctrl : String) (funcs : Option (List String)) : Prop :=
  ∃ step, funcs = some step ∧
    ∀ tok, timerFunction step = some tok → timerKeyOf (ctrl, tok) ∈ state.timerClaims

/-- What a check of the first channel misses, if anything. -/
theorem refusesTimer_complete_iff {state : Allocation} {ctrl : String} {connector : Connector} :
    (RefusesTimer state ctrl
        (derivePinCapabilities inputs.chips[ctrl]? connector)["step"]? →
      TimersTaken inputs state ctrl connector) ↔
    FirstTimerDecides inputs state ctrl connector := by
  rw [getElem?_step_derivePinCapabilities]
  unfold RefusesTimer TimersTaken FirstTimerDecides TimersTaken stepTimers
  cases inputs.chips[ctrl]?.bind fun chip => connector.pins["step"]?.bind fun pin =>
      chip.pinFunctions[pin]? with
  | none => simp
  | some step =>
    simp only [timerFunction_eq_head?, Option.getD_some, Option.some.injEq, exists_eq_left',
      Option.mem_def]
    cases step.filter fun f => startsWith f "tim" with
    | nil => simp
    | cons first later => simp

end Timers

/-! ## Where the run checks a timer -/

section Run

variable (κ : Type) [Numbers κ] (inputs : AllocationInputs)

/-- The claims after the first explicit ones. -/
def claimedState (before : List ExplicitClaim) : Allocation :=
  (pass (explicitStep κ inputs) .start before).1

/-- The claims after all explicit ones and the first searches. -/
def searchedState (before : List ConnectorSearch) : Allocation :=
  (pass (searchStep κ inputs) (claimedState κ inputs (explicitClaims inputs)) before).1

/-- A search comes to a free candidate of the right domain, after none before it would do. -/
structure Considers (search : ConnectorSearch) (state : Allocation) (board : BoardPackageFile)
    (target : String) : Prop where
  onBoard : ∃ ctrl, search.controller inputs = .ok ctrl ∧ inputs.boards[ctrl]? = some board ∧
    ∃ earlier later, (search.candidates board).map (fun (id, _) => s!"{ctrl}.{id}") =
      earlier ++ target :: later ∧ search.choose κ inputs state board earlier = none
  free : target ∉ state.claims
  domain : search.domainOk board target = true

/-- A socket is refused for its timer only where all channels of its step pin are reserved. -/
structure TimersComplete : Prop where
  explicit : ∀ before claim after d ctrl connector,
    explicitClaims inputs = before ++ claim :: after →
    claim.place κ inputs (claimedState κ inputs before) = .error d →
    d.code = "E1310" ∨ d.code = "E1314" →
    socketOf inputs claim.target = some (ctrl, connector) →
    TimersTaken inputs (claimedState κ inputs before) ctrl connector
  search : ∀ before search after board target ctrl connector,
    connectorSearches inputs = before ++ search :: after →
    Considers κ inputs search (searchedState κ inputs before) board target →
    search.timingOk κ inputs (searchedState κ inputs before) board target = false →
    ConnectorSearch.connectorOf board target = some (ctrl, connector) →
    TimersTaken inputs (searchedState κ inputs before) ctrl connector

/-- At every stepper socket whose timer is checked, the first channel is reserved only where all
are. -/
structure FirstTimersDecide : Prop where
  explicit : ∀ before claim after ctrl connector bus,
    explicitClaims inputs = before ++ claim :: after →
    claim.expectedKind = stepperSocket →
    claim.connector inputs (claimedState κ inputs before) = .ok (ctrl, connector) →
    claim.busConstraints κ inputs ctrl
      (derivePinCapabilities inputs.chips[ctrl]? connector) = .ok bus →
    FirstTimerDecides inputs (claimedState κ inputs before) ctrl connector
  search : ∀ before search after board target ctrl connector,
    connectorSearches inputs = before ++ search :: after →
    search.requiredKind = stepperSocket →
    Considers κ inputs search (searchedState κ inputs before) board target →
    ConnectorSearch.connectorOf board target = some (ctrl, connector) →
    FirstTimerDecides inputs (searchedState κ inputs before) ctrl connector

variable {κ inputs}

/-! ## Explicit claims -/

/-- An error of the timer check. -/
def TimerError (d : Diagnostic) : Prop := d.code = "E1310" ∨ d.code = "E1314"

@[simp] theorem code_diagnosticAtSource (d : Diagnostic) (path : String)
    (source : Option SourceSpan) : (diagnosticAtSource d path source).code = d.code := by
  cases source <;> rfl

@[simp] theorem code_relatedToClaim (d : Diagnostic) (message path : String)
    (source : Option SourceSpan) : (relatedToClaim d message path source).code = d.code := by
  cases source <;> rfl

section Explicit

variable {claim : ExplicitClaim} {state : Allocation} {ctrl : String} {connector : Connector}

@[simp] theorem ExplicitClaim.code_error (code message : String) :
    (claim.error inputs code message).code = code := by
  simp [ExplicitClaim.error, Diagnostic.error]

@[simp] theorem ExplicitClaim.code_conflict (board : BoardPackageFile) (prev : ResourceClaim) :
    (claim.conflict inputs state ctrl board prev).code = "E1200" := by
  unfold ExplicitClaim.conflict
  dsimp only
  split <;> simp [Diagnostic.suggest]

theorem not_timerError_connector :
    FailsWith (¬ TimerError ·) (claim.connector inputs state) := by
  unfold ExplicitClaim.connector
  split
  · exact .error (by simp [TimerError])
  · refine .bind (.okOr (by simp [TimerError])) fun board _ => .bind (.okOr ?_) fun connector _ =>
      .bind (.reject_of (by simp [TimerError])) fun _ _ => ?_
    · simp [TimerError, Diagnostic.suggest, Diagnostic.error]
    · split
      · exact .error (by simp [TimerError])
      · exact .pure _

theorem not_timerError_busConstraints {caps : PinCapabilities} :
    FailsWith (¬ TimerError ·) (claim.busConstraints κ inputs ctrl caps) := by
  unfold ExplicitClaim.busConstraints
  split
  · exact .pure _
  · split
    · exact .pure _
    · exact .error (by simp [TimerError])

theorem timerError_timer {caps : PinCapabilities} :
    FailsWith TimerError (claim.timer κ inputs state ctrl connector caps) := by
  unfold ExplicitClaim.timer
  split
  · exact .pure _
  · split
    · exact .pure _
    · dsimp only
      split
      · exact .error (by simp [TimerError])
      · split
        · exact .error (by simp [TimerError, ExplicitClaim.timerConflict])
        · exact .pure _

theorem exists_timer_eq_error {caps : PinCapabilities} :
    (∃ d, claim.timer κ inputs state ctrl connector caps = .error d) ↔
      hasStepRate κ inputs = true ∧ claim.expectedKind = stepperSocket ∧
        RefusesTimer state ctrl caps["step"]? := by
  unfold ExplicitClaim.timer RefusesTimer
  by_cases hrate : hasStepRate κ inputs = true
  · by_cases hkind : claim.expectedKind = stepperSocket
    · cases hstep : caps["step"]? with
      | none => simp [hrate, hkind]
      | some step =>
        cases htok : timerFunction step with
        | none => simp [hrate, hkind, htok]
        | some tok =>
          have hkey : timerKeyOf (ctrl, tok) ∈ state.timerClaims ↔
              (state.timerClaims[s!"{ctrl}.{tok}"]?).isSome :=
            Std.TreeMap.mem_iff_isSome_getElem?
          cases hclaim : state.timerClaims[s!"{ctrl}.{tok}"]? with
          | none =>
            rw [hclaim] at hkey
            simp [hrate, hkind, htok, hclaim, hkey]
          | some other =>
            rw [hclaim] at hkey
            simp [hrate, hkind, htok, hclaim, hkey]
    · simp [hkind]
  · simp [hrate]

/-- An explicit claim is refused for its timer exactly when it comes to the timer check, and the
first channel is missing or reserved. -/
theorem exists_place_eq_timerError :
    (∃ d, claim.place κ inputs state = .error d ∧ TimerError d) ↔
      ∃ ctrl connector bus, claim.connector inputs state = .ok (ctrl, connector) ∧
        claim.busConstraints κ inputs ctrl
          (derivePinCapabilities inputs.chips[ctrl]? connector) = .ok bus ∧
        hasStepRate κ inputs = true ∧ claim.expectedKind = stepperSocket ∧
        RefusesTimer state ctrl
          (derivePinCapabilities inputs.chips[ctrl]? connector)["step"]? := by
  constructor
  · rintro ⟨d, hd, htimer⟩
    obtain h | ⟨⟨ctrl, connector⟩, hconnector, h⟩ := bind_eq_error.mp hd
    · exact absurd htimer (not_timerError_connector d h)
    obtain h | ⟨bus, hbus, h⟩ := bind_eq_error.mp h
    · exact absurd htimer (not_timerError_busConstraints d h)
    obtain h | ⟨_, _, h⟩ := bind_eq_error.mp h
    · exact ⟨ctrl, connector, bus, hconnector, hbus, exists_timer_eq_error.mp ⟨d, h⟩⟩
    · cases h
  · rintro ⟨ctrl, connector, bus, hconnector, hbus, hrefused⟩
    obtain ⟨d, hd⟩ := exists_timer_eq_error.mpr hrefused
    refine ⟨d, ?_, timerError_timer d hd⟩
    exact bind_eq_error.mpr (.inr ⟨_, hconnector, bind_eq_error.mpr (.inr ⟨_, hbus,
      bind_eq_error.mpr (.inl hd)⟩)⟩)

theorem socketOf_of_connector (h : claim.connector inputs state = .ok (ctrl, connector)) :
    socketOf inputs claim.target = some (ctrl, connector) := by
  obtain ⟨port, board, hsplit, hboard, hport, -⟩ := connector_eq_ok h
  simp [socketOf, hsplit, hboard, hport]

end Explicit

/-! ## Searches -/

theorem timingOk_eq_false {search : ConnectorSearch} {state : Allocation}
    {board : BoardPackageFile} {target ctrl : String} {connector : Connector}
    (hsocket : ConnectorSearch.connectorOf board target = some (ctrl, connector)) :
    search.timingOk κ inputs state board target = false ↔
      hasStepRate κ inputs = true ∧ search.requiredKind = stepperSocket ∧
        RefusesTimer state ctrl
          (derivePinCapabilities inputs.chips[ctrl]? connector)["step"]? := by
  unfold ConnectorSearch.timingOk RefusesTimer
  by_cases hrate : hasStepRate κ inputs = true
  · by_cases hkind : search.requiredKind = stepperSocket
    · simp only [hrate, hkind, hsocket]
      cases (derivePinCapabilities inputs.chips[ctrl]? connector)["step"]? with
      | none => simp
      | some step =>
        cases htok : timerFunction step with
        | none => simp [htok]
        | some tok => simp [htok, timerKeyOf]
    · simp [hkind]
  · simp [hrate]

/-! ## Both -/

/-- For a machine with a step rate, sockets are refused for reserved timers alone, if and only if
the first channel of each decides for all. -/
theorem timersComplete_iff (hrate : hasStepRate κ inputs = true) :
    TimersComplete κ inputs ↔ FirstTimersDecide κ inputs := by
  constructor
  · intro h
    constructor
    · intro before claim after ctrl connector bus hclaims hkind hconnector hbus
      apply refusesTimer_complete_iff.mp
      intro hrefused
      obtain ⟨d, hd, htimer⟩ := exists_place_eq_timerError.mpr
        ⟨ctrl, connector, bus, hconnector, hbus, hrate, hkind, hrefused⟩
      exact h.explicit before claim after d ctrl connector hclaims hd htimer
        (socketOf_of_connector hconnector)
    · intro before search after board target ctrl connector hsearches hkind hconsiders hsocket
      apply refusesTimer_complete_iff.mp
      intro hrefused
      exact h.search before search after board target ctrl connector hsearches hconsiders
        ((timingOk_eq_false hsocket).mpr ⟨hrate, hkind, hrefused⟩) hsocket
  · intro h
    constructor
    · intro before claim after d ctrl connector hclaims hd htimer hsocket
      obtain ⟨_, _, bus, hconnector, hbus, -, hkind, hrefused⟩ :=
        exists_place_eq_timerError.mp ⟨d, hd, htimer⟩
      obtain ⟨rfl, rfl⟩ := Prod.mk.inj
        (Option.some.inj ((socketOf_of_connector hconnector).symm.trans hsocket))
      exact refusesTimer_complete_iff.mpr
        (h.explicit before claim after _ _ bus hclaims hkind hconnector hbus) hrefused
    · intro before search after board target ctrl connector hsearches hconsiders hfalse hsocket
      obtain ⟨-, hkind, hrefused⟩ := (timingOk_eq_false hsocket).mp hfalse
      exact refusesTimer_complete_iff.mpr
        (h.search before search after board target ctrl connector hsearches hkind hconsiders
          hsocket) hrefused

end Run

/-! ## Two motors -/

def twoMotorBoard : BoardPackageFile :=
  { benchBoard with
    connectors := .ofList [("motor0", benchConnector stepperSocket [("step", "pa2")] none),
      ("motor1", benchConnector stepperSocket [("step", "pa3")] none)] }

/-- The second step pin offers a channel of its own after that of the first. -/
def twoMotorChip : ChipPackageFile :=
  { benchChip with
    pinFunctions := .ofList [("pa2", ["tim1.ch1"]), ("pa3", ["tim1.ch1", "tim2.ch1"])] }

def twoMotorInputs : AllocationInputs where
  doc :=
    { steppedGraph with
      components := .ofList [
        ("x_driver", benchComponent "driver" [("connected_to", "main.motor0")]),
        ("y_driver", benchComponent "driver" [("connected_to", "main.motor1")])] }
  sources := ∅
  deviceReqs := ∅
  boards := .ofList [("main", twoMotorBoard)]
  chips := .ofList [("main", twoMotorChip)]

theorem timersComplete_iff_twoMotorInputs :
    TimersComplete ℚ twoMotorInputs ↔ FirstTimersDecide ℚ twoMotorInputs :=
  timersComplete_iff (by decide +kernel)

def motorClaim (cname target : String) : ExplicitClaim where
  cname
  attr := "connected_to"
  target
  expectedKind := stepperSocket
  requirement := none

def xClaim : ExplicitClaim := motorClaim "x_driver" "main.motor0"

def yClaim : ExplicitClaim := motorClaim "y_driver" "main.motor1"

theorem explicitClaims_twoMotorInputs : explicitClaims twoMotorInputs = [xClaim, yClaim] := rfl

/-- The second motor is refused for `tim1.ch1`, although `tim2.ch1` is free. -/
theorem not_timersComplete_twoMotorInputs : ¬ TimersComplete ℚ twoMotorInputs := by
  intro h
  have hrefused : (match yClaim.place ℚ twoMotorInputs (claimedState ℚ twoMotorInputs [xClaim]) with
      | .ok _ => none
      | .error d => some d.code) = some "E1314" := by
    decide +kernel
  have hfree : ((socketOf twoMotorInputs yClaim.target).all fun (ctrl, connector) =>
      (stepTimers twoMotorInputs ctrl connector).all fun tok =>
        (claimedState ℚ twoMotorInputs [xClaim]).timerClaims.contains
          (timerKeyOf (ctrl, tok))) = false := by
    decide +kernel
  split at hrefused
  · cases hrefused
  · rename_i d hplace
    have htaken := h.explicit [xClaim] yClaim [] d "main" _ explicitClaims_twoMotorInputs hplace
      (.inr (Option.some.inj hrefused)) rfl
    have hall := List.all_eq_true.mpr fun tok htok =>
      Std.TreeMap.contains_iff_mem.mpr (htaken tok htok)
    exact Bool.noConfusion (hfree.symm.trans hall)

end Dryer.MachineResolver
