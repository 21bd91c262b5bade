import Dryer.MachineResolver.Phases

/-!
# Build plans

Every controller of a resolved graph has a build plan, and the plan keeps to what the check of the
chip package grants: plain texts, versioned interfaces, and a bootloader within the flash.
-/
namespace Dryer.MachineResolver
open Library MachineSchema MachineParser PackageModel

variable {ν ρ : Type} [LinearOrder ν] [DecidableEq ρ] [Semver ν ρ]

/-! ## Versioned interfaces -/

theorem isWhitespace_of_lowercase {c : Char} (h : isAsciiLowercase c ∨ c = '.') :
    isWhitespace c = false := by
  obtain hletter | rfl := h
  · obtain ⟨hfirst, hlast⟩ := Bool.and_eq_true_iff.mp hletter
    have hfirst : 0x61 ≤ c.toNat := of_decide_eq_true hfirst
    have hlast : c.toNat ≤ 0x7a := of_decide_eq_true hlast
    apply isWhitespace_eq_false <;> omega
  · rfl

theorem isWhitespace_of_digit {c : Char} (h : isAsciiDigit c) : isWhitespace c = false := by
  obtain ⟨hfirst, hlast⟩ := Bool.and_eq_true_iff.mp h
  have hfirst : 0x30 ≤ c.toNat := of_decide_eq_true hfirst
  have hlast : c.toNat ≤ 0x39 := of_decide_eq_true hlast
  apply isWhitespace_eq_false <;> omega

/-- A versioned interface starts with a letter or a point, and ends with a digit. -/
theorem nonemptyUnpadded_of_versionedInterface {value : String} (h : versionedInterface value) :
    nonemptyUnpadded value := by
  unfold versionedInterface at h
  split at h
  · cases h
  · rename_i name version hcut
    simp only [Bool.and_eq_true, Bool.not_eq_true', List.isEmpty_eq_false_iff, List.all_eq_true,
      Bool.or_eq_true, decide_eq_true_eq] at h
    obtain ⟨⟨⟨⟨hsome, hname⟩, hfirst⟩, hdigits⟩, -⟩ := h
    have hlist := cutAt_eq_some hcut
    obtain ⟨c, name, rfl⟩ := List.exists_cons_of_ne_nil hsome
    have hversion : version ≠ [] := by
      rintro rfl
      simp at hfirst
    have htrim : trim value = value := by
      apply trim_eq_self
      · intro head hhead
        rw [hlist, List.cons_append, List.head?_cons, Option.mem_some_iff] at hhead
        exact hhead ▸ isWhitespace_of_lowercase (hname c List.mem_cons_self)
      · intro last hlast
        rw [hlist, List.getLast?_append, List.getLast?_append,
          List.getLast?_eq_some_getLast hversion, Option.some_or, Option.some_or,
          Option.mem_some_iff] at hlast
        exact hlast ▸ isWhitespace_of_digit (hdigits _ (List.getLast_mem hversion))
    have hnonempty : value.isEmpty = false := by
      rw [String.isEmpty_eq_false_iff]
      rintro rfl
      simp at hlist
    simp [nonemptyUnpadded, htrim, hnonempty]

/-! ## Checked chips -/

/-- A firmware target that the check of chip packages accepts. -/
structure SoundFirmware (firmware : FirmwareTarget) : Prop where
  unpadded : ∀ value ∈ [firmware.targetTriple, firmware.toolchain, firmware.buildProfile],
    nonemptyUnpadded value
  interfaces : ∀ value ∈ [firmware.protocolVersion, firmware.abiVersion],
    versionedInterface value
  features : ∀ feature ∈ firmware.features, validIdentifier feature

theorem soundFirmware_of_firmwareErrors {reference : String} {firmware : FirmwareTarget}
    (h : firmwareErrors reference firmware = []) : SoundFirmware firmware := by
  simp only [firmwareErrors, List.append_eq_nil_iff, List.flatMap_eq_nil_iff] at h
  obtain ⟨⟨hpadding, hinterfaces⟩, hfeatures⟩ := h
  refine ⟨?_, ?_, ?_⟩
  · simpa [paddingErrors] using hpadding
  · simpa [interfaceErrors] using hinterfaces
  · intro feature hfeature
    obtain ⟨earlier, later, hsplit⟩ := List.append_of_mem hfeature
    have hchecked := hfeatures _ (hsplit ▸ mem_withEarlier earlier feature later)
    simp only [featureErrors, ite_eq_right_iff, List.cons_ne_nil, imp_false, Bool.or_eq_true,
      not_or, Bool.not_eq_true', Bool.not_eq_false] at hchecked
    exact hchecked.1

/-- What the check of a chip package says of the parts that a build needs. -/
theorem sound_of_chipErrors {κ : Type} [Numbers κ] {reference : String} {chip : ChipPackageFile}
    {memory : MemoryLayout} {boot : BootConfig} {firmware : FirmwareTarget} {flashBytes : ℕ}
    (h : chipErrors κ reference chip = []) (hmemory : chip.memory = some memory)
    (hboot : chip.boot = some boot) (hfirmware : chip.firmware = some firmware)
    (hflash : memory.flashBytes κ = some flashBytes) :
    SoundFirmware firmware ∧ boot.defaultBootloaderOffset < flashBytes := by
  simp only [chipErrors, hmemory, hfirmware, Option.map_some, Option.getD_some,
    List.append_eq_nil_iff, memoryErrors] at h
  obtain ⟨⟨⟨-, -, hbootErrors⟩, hfirmwareErrors⟩, -⟩ := h
  refine ⟨soundFirmware_of_firmwareErrors hfirmwareErrors, ?_⟩
  simp only [bootErrors, hflash, hboot, ite_eq_right_iff, List.cons_ne_nil, imp_false,
    Nat.not_le] at hbootErrors
  exact hbootErrors

/-! ## Plans -/

/-- A plan for a controller, of a chip that the check accepts. -/
structure SoundPlan (controller : GraphController) (plan : ControllerBuildPlan) : Prop where
  board : ∃ version : String, plan.board = s!"{controller.board}@{version}"
  unpadded : ∀ value ∈ [plan.targetTriple, plan.toolchain, plan.buildProfile,
    plan.protocolVersion, plan.abiVersion], nonemptyUnpadded value
  interfaces : ∀ value ∈ [plan.protocolVersion, plan.abiVersion], versionedInterface value
  flash : plan.bootloaderOffsetBytes < plan.flashBytes
  features : ∃ features, plan.features = sortedUnique features ∧
    ∀ feature ∈ features, validIdentifier feature
  drivers : ∃ drivers, plan.nativeDrivers = sortedUnique drivers

variable {κ : Type} [Numbers κ] {files : PackageFiles ν} {graph : MachineGraph}
  {registry : LocalRegistry ν} {profile : SafetyProfileFile} {resolved : ResolvedGraph}
  {name : String} {controller : GraphController} {plan : ControllerBuildPlan}

omit [LinearOrder ν] [DecidableEq ρ] in
theorem soundPlan_of_planController {inputs : ArtifactInputs ν} {chip : ChipPackageFile}
    {reference : String} (h : planController κ inputs resolved name controller = .ok plan)
    (hchip : inputs.chips[name]? = some chip) (hchecked : chipErrors κ reference chip = []) :
    SoundPlan controller plan := by
  unfold planController at h
  rw [hchip] at h
  dsimp only at h
  split at h
  · rename_i memory boot firmware chipReference hmemory hboot hfirmware _
    split at h
    · rename_i flashBytes ramBytes hflash _
      obtain ⟨hsound, hoffset⟩ := sound_of_chipErrors hchecked hmemory hboot hfirmware hflash
      split at h
      · obtain rfl := Except.ok.inj h
        refine ⟨⟨_, rfl⟩, ?_, hsound.interfaces, hoffset, ⟨_, rfl, hsound.features⟩, ⟨_, rfl⟩⟩
        have hunpadded := hsound.unpadded
        have hinterfaces := hsound.interfaces
        simp only [List.forall_mem_cons, List.not_mem_nil, false_imp_iff, implies_true,
          and_true] at hunpadded hinterfaces ⊢
        exact ⟨hunpadded.1, hunpadded.2.1, hunpadded.2.2,
          nonemptyUnpadded_of_versionedInterface hinterfaces.1,
          nonemptyUnpadded_of_versionedInterface hinterfaces.2⟩
      · cases h
    · cases h
  · cases h

omit [LinearOrder ν] [DecidableEq ρ] in
theorem exists_chip_of_planController {inputs : ArtifactInputs ν}
    (h : planController κ inputs resolved name controller = .ok plan) :
    ∃ chip, inputs.chips[name]? = some chip := by
  unfold planController at h
  split at h
  · cases h
  · rename_i chip hchip
    exact ⟨chip, hchip⟩

omit [LinearOrder ν] [DecidableEq ρ] in
theorem failsWith_planController {inputs : ArtifactInputs ν} :
    FailsWith (·.severity = .error) (planController κ inputs resolved name controller) := by
  have hone (code message : String) : (planError name code message).severity = .error := by
    simp [planError]
  unfold planController
  split
  · exact .error (hone _ _)
  · split
    · split
      · split
        · exact .pure _
        · exact .error (hone _ _)
      · exact .error (hone _ _)
    · exact .error (hone _ _)

omit [DecidableEq ρ] in
theorem check_of_chips {selection : PackageSelection ν} {chip : ChipPackageFile}
    (h : (loadTargets κ files selection graph).1.chips[name]? = some chip) :
    ∃ reference, chipErrors κ reference chip = [] := by
  obtain ⟨controller, -, hload⟩ := getElem?_filterMap_eq_some.mp h
  obtain ⟨⟨_, reference⟩, hchip, rfl⟩ := Option.map_eq_some_iff.mp hload
  obtain ⟨_, _, _, package, -, -, -, -, hpayload, -⟩ := chip_of_loadController hchip
  exact ⟨_, check_of_readPayload hpayload⟩

/-- The plans of a resolved graph are those of the controllers of the document. -/
theorem Resolves.controllerBuildPlans_eq (h : Resolves κ files graph registry profile resolved) :
    resolved.controllerBuildPlans[name]? = some plan ↔ ∃ controller,
      graph.controllers[name]? = some controller ∧
      planController κ (artifactInputsOf κ files graph registry)
        (partitionSafety κ (expandedOf κ files graph registry).doc
          (allocatedOf κ files graph registry) profile).1 name controller = .ok plan := by
  have htoOption {x : Except Diagnostic ControllerBuildPlan} :
      x.toOption = some plan ↔ x = .ok plan := by
    cases x <;> simp [Except.toOption]
  rw [h.graphEq]
  refine getElem?_filterMap_eq_some.trans ?_
  simp only [htoOption, artifactInputsOf, controllers_expandedOf]

theorem Resolves.exists_plan (h : Resolves κ files graph registry profile resolved)
    (hcontroller : graph.controllers[name]? = some controller) :
    ∃ plan, resolved.controllerBuildPlans[name]? = some plan := by
  simp only [h.controllerBuildPlans_eq]
  cases hplan : planController κ (artifactInputsOf κ files graph registry)
      (partitionSafety κ (expandedOf κ files graph registry).doc
        (allocatedOf κ files graph registry) profile).1 name controller with
  | ok plan => exact ⟨plan, controller, hcontroller, hplan⟩
  | error e =>
    have hmem : (name, controller) ∈
        (artifactInputsOf κ files graph registry).doc.controllers.toList := by
      rw [Std.TreeMap.mem_toList_iff_getElem?_eq_some, artifactInputsOf, controllers_expandedOf]
      exact hcontroller
    have hreported := hasError_eq_false.mp h.plans e
      (List.mem_flatMap.mpr ⟨_, hmem, by simp [planErrors, hplan]⟩)
    exact absurd (failsWith_planController e hplan) hreported

theorem Resolves.soundPlan (h : Resolves κ files graph registry profile resolved)
    (hplan : resolved.controllerBuildPlans[name]? = some plan) :
    ∃ controller, graph.controllers[name]? = some controller ∧ SoundPlan controller plan := by
  obtain ⟨controller, hcontroller, hok⟩ := h.controllerBuildPlans_eq.mp hplan
  obtain ⟨chip, hchip⟩ := exists_chip_of_planController hok
  obtain ⟨reference, hchecked⟩ := check_of_chips (κ := κ) hchip
  exact ⟨controller, hcontroller, soundPlan_of_planController hok hchip hchecked⟩

end Dryer.MachineResolver
