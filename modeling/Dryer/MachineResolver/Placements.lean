import Dryer.MachineResolver.Allocation

/-!
# Placements

What one placement takes is free: its connector is of the kind that is assigned and unclaimed, and
its timer channel is unclaimed where one is needed. So no two assignments share either.
-/
namespace Dryer.MachineResolver
open Library MachineSchema PackageModel

/-- The assigned resource, as a connector of a board. -/
structure Names (inputs : AllocationInputs) (a : Assignment) (ctrl port : String)
    (board : BoardPackageFile) (connector : Connector) : Prop where
  splits : splitOnce a.resource '.' = some (ctrl, port)
  onBoard : inputs.boards[ctrl]? = some board
  atPort : board.connectors[port]? = some connector
  kind : connector.kind = a.connectorKind
  capabilities : a.pinCapabilities = derivePinCapabilities inputs.chips[ctrl]? connector

/-- The controller and the timer channel of an assigned stepper socket. -/
def timerPair (a : Assignment) : Option (String × String) :=
  if a.connectorKind ≠ stepperSocket then none
  else
    match splitOnce a.resource '.', a.pinCapabilities["step"]?.bind timerFunction with
    | some (ctrl, _), some tok => some (ctrl, tok)
    | _, _ => none

def timerKeyOf (pair : String × String) : String := s!"{pair.1}.{pair.2}"

/-- Where the machine declares a step rate, every stepper socket with functions on its step pin
has a timer channel. -/
def HasTimer (rate : Bool) (a : Assignment) : Prop :=
  rate = true → a.connectorKind = stepperSocket → (a.pinCapabilities["step"]?).isSome →
    (timerPair a).isSome

/-- A placement that keeps to what is there and free. -/
structure Fits (inputs : AllocationInputs) (rate : Bool) (state : Allocation) (p : Placement) :
    Prop where
  names : ∃ ctrl port board connector, Names inputs p.assignment ctrl port board connector
  free : p.assignment.resource ∉ state.claims
  hasTimer : HasTimer rate p.assignment
  timerFree : ∀ pair, rate = true → timerPair p.assignment = some pair →
    timerKeyOf pair ∉ state.timerClaims ∧ ∃ claim, p.timer = some (timerKeyOf pair, claim)

/-! ## What allocation keeps -/

/-- The assignments so far, each at a connector and a timer channel of its own. -/
structure Allocation.Sound (inputs : AllocationInputs) (rate : Bool) (state : Allocation) :
    Prop where
  names : ∀ a ∈ state.assignments, ∃ ctrl port board connector,
    Names inputs a ctrl port board connector
  claimed : ∀ a ∈ state.assignments, a.resource ∈ state.claims
  distinct : (state.assignments.map Assignment.resource).Nodup
  hasTimer : ∀ a ∈ state.assignments, HasTimer rate a
  reserved : rate = true → ∀ a ∈ state.assignments, ∀ pair, timerPair a = some pair →
    timerKeyOf pair ∈ state.timerClaims
  timersDistinct : rate = true → (state.assignments.filterMap timerPair).Nodup

variable {inputs : AllocationInputs} {rate : Bool} {state : Allocation} {p : Placement}

theorem Allocation.Sound.start : Allocation.start.Sound inputs rate where
  names _ ha := absurd ha List.not_mem_nil
  claimed _ ha := absurd ha List.not_mem_nil
  distinct := List.nodup_nil
  hasTimer _ ha := absurd ha List.not_mem_nil
  reserved _ _ ha := absurd ha List.not_mem_nil
  timersDistinct _ := List.nodup_nil

theorem mem_timerClaims_record {key : String} :
    key ∈ (state.record p).timerClaims ↔
      key ∈ state.timerClaims ∨ ∃ claim, p.timer = some (key, claim) := by
  unfold Allocation.record
  cases htimer : p.timer with
  | none => simp
  | some timer =>
    obtain ⟨first, claim⟩ := timer
    simp [Std.TreeMap.mem_insert, or_comm]

/-- The step of allocation: a placement that fits keeps all assignments apart. -/
theorem Allocation.Sound.record (h : state.Sound inputs rate) (hp : Fits inputs rate state p) :
    (state.record p).Sound inputs rate where
  names a ha := by
    obtain hold | hnew := List.mem_append.mp ha
    · exact h.names a hold
    · rw [List.mem_singleton.mp hnew]
      exact hp.names
  claimed a ha := by
    obtain hold | hnew := List.mem_append.mp ha
    · exact Std.TreeMap.mem_insert.mpr (.inr (h.claimed a hold))
    · rw [List.mem_singleton.mp hnew]
      exact Std.TreeMap.mem_insert_self
  distinct := by
    have hfresh : p.assignment.resource ∉ state.assignments.map Assignment.resource := by
      intro hmem
      obtain ⟨a, ha, hresource⟩ := List.mem_map.mp hmem
      exact hp.free (hresource ▸ h.claimed a ha)
    rw [Allocation.record, List.map_append, List.map_singleton, ← List.concat_eq_append]
    exact h.distinct.concat hfresh
  hasTimer a ha := by
    obtain hold | hnew := List.mem_append.mp ha
    · exact h.hasTimer a hold
    · rw [List.mem_singleton.mp hnew]
      exact hp.hasTimer
  reserved hrate a ha pair hpair := by
    apply mem_timerClaims_record.mpr
    obtain hold | hnew := List.mem_append.mp ha
    · exact .inl (h.reserved hrate a hold pair hpair)
    · rw [List.mem_singleton.mp hnew] at hpair
      exact .inr (hp.timerFree pair hrate hpair).2
  timersDistinct hrate := by
    have hfresh : ∀ pair, timerPair p.assignment = some pair →
        pair ∉ state.assignments.filterMap timerPair := by
      intro pair hpair hmem
      obtain ⟨a, ha, heq⟩ := List.mem_filterMap.mp hmem
      exact (hp.timerFree pair hrate hpair).1 (h.reserved hrate a ha pair heq)
    rw [Allocation.record, List.filterMap_append]
    cases hpair : timerPair p.assignment with
    | none => simpa [hpair] using h.timersDistinct hrate
    | some pair =>
      rw [List.filterMap_cons_some hpair, List.filterMap_nil, ← List.concat_eq_append]
      exact (h.timersDistinct hrate).concat (hfresh pair hpair)

theorem timerPair_eq {a : Assignment} {ctrl port : String}
    (h : splitOnce a.resource '.' = some (ctrl, port)) :
    timerPair a = if a.connectorKind = stepperSocket then
      (a.pinCapabilities["step"]?.bind timerFunction).map (ctrl, ·) else none := by
  unfold timerPair
  by_cases hkind : a.connectorKind = stepperSocket
  · rw [h]
    cases a.pinCapabilities["step"]?.bind timerFunction <;> simp [hkind]
  · simp [hkind]

/-- A placement at a free connector fits when it has a free timer channel where one is needed. -/
theorem fits_of_names {ctrl port : String} {board : BoardPackageFile} {connector : Connector}
    (hnames : Names inputs p.assignment ctrl port board connector)
    (hfree : p.assignment.resource ∉ state.claims)
    (htimer : rate = true → p.assignment.connectorKind = stepperSocket →
      ∀ funcs, p.assignment.pinCapabilities["step"]? = some funcs →
        ∃ tok, timerFunction funcs = some tok ∧ timerKeyOf (ctrl, tok) ∉ state.timerClaims ∧
          ∃ claim, p.timer = some (timerKeyOf (ctrl, tok), claim)) :
    Fits inputs rate state p where
  names := ⟨ctrl, port, board, connector, hnames⟩
  free := hfree
  hasTimer := by
    intro hrate hkind hstep
    obtain ⟨funcs, hfuncs⟩ := Option.isSome_iff_exists.mp hstep
    obtain ⟨tok, htok, -⟩ := htimer hrate hkind funcs hfuncs
    simp [timerPair_eq hnames.splits, hkind, hfuncs, htok]
  timerFree := by
    intro pair hrate hpair
    rw [timerPair_eq hnames.splits] at hpair
    split at hpair
    · rename_i hkind
      obtain ⟨tok, htok, rfl⟩ := Option.map_eq_some_iff.mp hpair
      obtain ⟨funcs, hfuncs, htok⟩ := Option.bind_eq_some_iff.mp htok
      obtain ⟨tok', htok', hrest⟩ := htimer hrate hkind funcs hfuncs
      obtain rfl := Option.some.inj (htok.symm.trans htok')
      exact hrest
    · cases hpair

/-! ## Explicit claims fit -/

section Explicit

variable {κ : Type} [Numbers κ] {claim : ExplicitClaim}

theorem connector_eq_ok {ctrl : String} {connector : Connector}
    (h : claim.connector inputs state = .ok (ctrl, connector)) :
    ∃ port board, splitOnce claim.target '.' = some (ctrl, port) ∧
      inputs.boards[ctrl]? = some board ∧ board.connectors[port]? = some connector ∧
      connector.kind = claim.expectedKind ∧ claim.target ∉ state.claims := by
  unfold ExplicitClaim.connector at h
  split at h
  · cases h
  · rename_i ctrl' port hsplit
    simp only [bind_eq_ok, okOr_eq_ok, reject_eq_ok] at h
    obtain ⟨board, hboard, connector', hconnector, _, hkind, h⟩ := h
    split at h
    · cases h
    · rename_i hnone
      obtain ⟨rfl, rfl⟩ := Prod.mk.inj (Except.ok.inj h)
      refine ⟨port, board, hsplit, hboard, hconnector, not_not.mp hkind, ?_⟩
      rw [Std.TreeMap.mem_iff_isSome_getElem?, hnone]
      simp

theorem timer_eq_ok {ctrl : String} {connector : Connector} {caps : PinCapabilities}
    {found : Option String} (h : claim.timer κ inputs state ctrl connector caps = .ok found)
    (hrate : hasStepRate κ inputs = true) (hkind : claim.expectedKind = stepperSocket)
    {funcs : List String} (hfuncs : caps["step"]? = some funcs) :
    ∃ tok, timerFunction funcs = some tok ∧ found = some tok ∧
      timerKeyOf (ctrl, tok) ∉ state.timerClaims := by
  unfold ExplicitClaim.timer at h
  split at h
  · rename_i hskip
    simp [hrate, hkind] at hskip
  · rw [hfuncs] at h
    dsimp only at h
    split at h
    · cases h
    · rename_i tok htok
      split at h
      · cases h
      · rename_i hnone
        refine ⟨tok, htok, (Except.ok.inj h).symm, ?_⟩
        rw [timerKeyOf, Std.TreeMap.mem_iff_isSome_getElem?, hnone]
        simp

/-- The step of the explicit pass. -/
theorem fits_of_explicit (h : claim.place κ inputs state = .ok p) :
    Fits inputs (hasStepRate κ inputs) state p := by
  simp only [ExplicitClaim.place, bind_eq_ok] at h
  obtain ⟨⟨ctrl, connector⟩, hconnector, bus, -, timer, htimer, hp⟩ := h
  obtain rfl := Except.ok.inj hp
  obtain ⟨port, board, hsplit, hboard, hport, hkind, hfree⟩ := connector_eq_ok hconnector
  apply fits_of_names ⟨hsplit, hboard, hport, rfl, rfl⟩ hfree
  intro hrate hstepper funcs hfuncs
  obtain ⟨tok, htok, rfl, hunclaimed⟩ :=
    timer_eq_ok htimer hrate (hkind.symm.trans hstepper) hfuncs
  exact ⟨tok, htok, hunclaimed, _, rfl⟩

end Explicit

/-! ## Searches fit -/

section Search

variable {κ : Type} [Numbers κ] {search : ConnectorSearch}

theorem splitOnce_point {ctrl port : String} (h : '.' ∉ ctrl.toList) :
    splitOnce s!"{ctrl}.{port}" '.' = some (ctrl, port) :=
  splitOnce_eq_some.mpr ⟨h, by simp [toString]⟩

/-- The step of the search pass, on boards whose controllers have no point in their names. -/
theorem fits_of_search (hnames : ∀ ctrl ∈ inputs.boards, '.' ∉ ctrl.toList)
    (h : search.place κ inputs state = .ok p) : Fits inputs (hasStepRate κ inputs) state p := by
  simp only [ConnectorSearch.place, bind_eq_ok, okOr_eq_ok] at h
  obtain ⟨ctrl, -, board, hboard, target, hchoose, hp⟩ := h
  obtain rfl := Except.ok.inj hp
  obtain ⟨⟨port, connector⟩, hcandidate, htarget⟩ :=
    List.mem_map.mp (List.mem_of_find?_eq_some hchoose)
  obtain ⟨hmem, hkind⟩ := List.mem_filter.mp hcandidate
  have hport : board.connectors[port]? = some connector :=
    Std.TreeMap.mem_toList_iff_getElem?_eq_some.mp hmem
  have hsplit : splitOnce target '.' = some (ctrl, port) := by
    rw [← htarget]
    exact splitOnce_point (hnames ctrl (Std.TreeMap.mem_iff_isSome_getElem?.mpr (by simp [hboard])))
  have hconnector : ConnectorSearch.connectorOf board target = some (ctrl, connector) := by
    simp [ConnectorSearch.connectorOf, hsplit, hport]
  have hcaps : ConnectorSearch.capabilities inputs board target =
      derivePinCapabilities inputs.chips[ctrl]? connector := by
    simp [ConnectorSearch.capabilities, hconnector]
  have hpassed := List.find?_some hchoose
  simp only [Bool.and_eq_true, Bool.not_eq_true', and_assoc] at hpassed
  obtain ⟨hfree, -, htiming, -⟩ := hpassed
  apply fits_of_names ⟨hsplit, hboard, hport, of_decide_eq_true hkind, hcaps⟩
  · intro hclaimed
    have hclaimed : state.claims.contains target := Std.TreeMap.contains_iff_mem.mpr hclaimed
    rw [hfree] at hclaimed
    cases hclaimed
  · intro hrate hstepper funcs hfuncs
    have hstepper : search.requiredKind = stepperSocket := hstepper
    have hstep : (ConnectorSearch.capabilities inputs board target)["step"]? = some funcs := hfuncs
    have hderived := hcaps ▸ hstep
    simp only [ConnectorSearch.timingOk, hrate, hstepper, hconnector, hderived] at htiming
    obtain ⟨tok, htok, hunclaimed⟩ := (Option.any_eq_true _ _).mp htiming
    have htimer : search.timer κ inputs target (ConnectorSearch.capabilities inputs board target) =
        some (timerKeyOf (ctrl, tok), tok) := by
      simp [ConnectorSearch.timer, hrate, hstepper, hstep, htok,
        firstSegment_of_splitOnce hsplit, timerKeyOf]
    refine ⟨tok, htok, ?_, ?_⟩
    · intro hclaimed
      have hclaimed : state.timerClaims.contains s!"{ctrl}.{tok}" :=
        Std.TreeMap.contains_iff_mem.mpr hclaimed
      rw [hclaimed] at hunclaimed
      cases hunclaimed
    · exact ⟨_, congrArg (Option.map _) htimer⟩

end Search

/-- Both passes keep all assignments apart, with and without errors. -/
theorem sound_allocate {κ : Type} [Numbers κ] (hnames : ∀ ctrl ∈ inputs.boards, '.' ∉ ctrl.toList) :
    (allocate κ inputs).1.Sound inputs (hasStepRate κ inputs) := by
  apply pass_invariant
  · intro search state next hstate hnext
    obtain ⟨p, hp, hnext⟩ := bind_eq_ok.mp hnext
    obtain rfl := Except.ok.inj hnext
    exact hstate.record (fits_of_search hnames hp)
  · apply pass_invariant
    · intro claim state next hstate hnext
      obtain ⟨p, hp, hnext⟩ := bind_eq_ok.mp hnext
      obtain rfl := Except.ok.inj hnext
      exact hstate.record (fits_of_explicit hp)
    · exact .start

end Dryer.MachineResolver
