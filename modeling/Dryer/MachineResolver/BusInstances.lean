import Dryer.MachineResolver.Capability

/-!
# Buses that a connector offers

The pins of a connector may name several buses of one family. A requirement is compared with the
first of them only.
-/
namespace Dryer.MachineResolver
open Library MachineSchema PackageModel

/-- The buses of a family that the functions of the pins name, in order. -/
def busInstances (caps : PinCapabilities) (kind : String) : List String :=
  caps.values.flatten.filterMap fun tok =>
    let busId := firstSegment tok '.'
    if busFamily busId = kind then some busId else none

theorem head?_busInstances (caps : PinCapabilities) (kind : String) :
    (busInstances caps kind).head? = busOf caps kind := List.head?_filterMap

/-- The declaration of a bus in the table of the chip. -/
def declaredBus (chip : Option ChipPackageFile) (busId : String) : Option Bus :=
  chip.bind fun chip => chip.buses.find? fun bus => bus.id = busId

/-- A channel of the chip carries the signal of a bus. -/
def RoutesSignal (chip : Option ChipPackageFile) (busId signal : String) : Prop :=
  ∃ chipFile, chip = some chipFile ∧ ∃ channel ∈ chipFile.peripherals.dma,
    s!"{busId}.{signal}" ∈ channel.routes

/-- The requirement asks for more than a family. -/
def NeedsDeclaration (req : BusReq) : Prop :=
  req.minFrequency.isSome ∨ req.maxLatency.isSome ∨ req.maxJitter.isSome ∨ req.dmaSignals ≠ []

section Meets

variable (κ : Type) [Numbers κ]

/-- A bus has everything that a requirement asks for, in the capabilities of the chip. -/
structure InstanceMeets (chip : Option ChipPackageFile) (req : BusReq) (busId : String) :
    Prop where
  declared : NeedsDeclaration req → (declaredBus chip busId).isSome
  frequency : ReachesMinimum κ ((declaredBus chip busId).bind Bus.maxFrequency) req.minFrequency
  latency : KeepsLimit κ ((declaredBus chip busId).bind Bus.worstCaseLatency) req.maxLatency
  jitter : KeepsLimit κ ((declaredBus chip busId).bind Bus.worstCaseJitter) req.maxJitter
  dma : ∀ signal ∈ req.dmaSignals, RoutesSignal chip busId signal

variable {κ}

/-! ## Each check, exactly -/

theorem checkFrequency_eq_ok (busId : String) {declared : Option Bus} {min : Option String} :
    checkFrequency κ busId declared min = .ok () ↔
      ReachesMinimum κ (declared.bind Bus.maxFrequency) min := by
  refine ⟨reachesMinimum_of_checkFrequency, ?_⟩
  intro h
  cases min with
  | none => rfl
  | some minRaw =>
    obtain ⟨raw, hraw, a, m, ha, hm, hle⟩ := h minRaw rfl
    simp only [checkFrequency, bind_eq_ok, okOr_eq_ok, parseQuantity_eq_ok, reject_eq_ok]
    exact ⟨m, hm, raw, hraw, a, ha, not_lt.mpr hle⟩

theorem exists_checkTime_eq_ok {busId field : String} {actual limit : Option String} :
    (∃ found, checkTime κ busId field actual limit = .ok found) ↔ KeepsLimit κ actual limit := by
  constructor
  · rintro ⟨found, h⟩
    exact keepsLimit_of_checkTime h
  · intro h
    cases limit with
    | none => exact ⟨none, rfl⟩
    | some limitRaw =>
      obtain ⟨raw, hraw, a, l, ha, hl, hle⟩ := h limitRaw rfl
      refine ⟨some raw, ?_⟩
      simp only [checkTime, bind_eq_ok, okOr_eq_ok, parseQuantity_eq_ok, reject_eq_ok]
      exact ⟨raw, hraw, a, ha, l, hl, (), not_lt.mpr hle, rfl⟩

theorem exists_dmaChannelForRoute {chip : ChipPackageFile} {route : String}
    {channel : DmaChannel} (hmem : channel ∈ chip.peripherals.dma)
    (hroute : route ∈ channel.routes) : ∃ found, chip.dmaChannelForRoute route = some found := by
  apply Option.ne_none_iff_exists'.mp
  intro hnone
  have hempty := List.argmin_eq_none.mp hnone
  have hin : channel ∈ chip.peripherals.dma.filter fun c => c.routes.contains route :=
    List.mem_filter.mpr ⟨hmem, List.contains_iff_mem.mpr hroute⟩
  rw [hempty] at hin
  cases hin

theorem exists_foldlM_routeSignal {chip : ChipPackageFile} {busId : String}
    {signals : List String} (routes : Std.TreeMap String String)
    (h : ∀ signal ∈ signals, RoutesSignal (some chip) busId signal) :
    ∃ found, signals.foldlM (routeSignal chip busId) routes = .ok found := by
  induction signals generalizing routes with
  | nil => exact ⟨routes, rfl⟩
  | cons first signals ih =>
    obtain ⟨_, hchip, channel, hmem, hroute⟩ := h first List.mem_cons_self
    obtain rfl := Option.some.inj hchip
    obtain ⟨found, hfound⟩ := exists_dmaChannelForRoute hmem hroute
    obtain ⟨rest, hrest⟩ := ih (routes.insert first found.id)
      fun signal hsignal => h signal (List.mem_cons_of_mem _ hsignal)
    refine ⟨rest, ?_⟩
    simp only [List.foldlM_cons, bind_eq_ok, routeSignal, okOr_eq_ok]
    exact ⟨_, ⟨found, hfound, rfl⟩, hrest⟩

theorem exists_dmaRoutes_eq_ok {chip : Option ChipPackageFile} {busId : String}
    {signals : List String} : (∃ found, dmaRoutes chip busId signals = .ok found) ↔
      ∀ signal ∈ signals, RoutesSignal chip busId signal := by
  cases signals with
  | nil =>
    constructor
    · intro _ _ hsignal
      cases hsignal
    · intro _
      exact ⟨∅, rfl⟩
  | cons first signals =>
    simp only [dmaRoutes, List.isEmpty_cons, Bool.false_eq_true, if_false, bind_eq_ok, okOr_eq_ok]
    constructor
    · rintro ⟨found, chipFile, hchip, hfold⟩ signal hsignal
      exact ⟨chipFile, hchip, mem_routes_of_foldlM hfold signal hsignal⟩
    · intro h
      obtain ⟨chipFile, rfl, -⟩ := h first List.mem_cons_self
      obtain ⟨found, hfound⟩ := exists_foldlM_routeSignal ∅ h
      exact ⟨found, chipFile, rfl, hfound⟩

/-- The requirement is met exactly when the first bus of the family meets it. -/
theorem exists_busSatisfied_eq_ok {chip : Option ChipPackageFile} {caps : PinCapabilities}
    {req : BusReq} : (∃ found, busSatisfied κ chip caps req = .ok found) ↔
      ∃ busId ∈ (busInstances caps req.kind).head?, InstanceMeets κ chip req busId := by
  have hmetadata : ∀ busId, ¬ ((req.minFrequency.isSome || req.maxLatency.isSome ||
      req.maxJitter.isSome || !req.dmaSignals.isEmpty) && (declaredBus chip busId).isNone) ↔
        (NeedsDeclaration req → (declaredBus chip busId).isSome) := by
    intro busId
    cases declaredBus chip busId <;> simp [NeedsDeclaration, and_assoc]
  rw [head?_busInstances]
  simp only [busSatisfied, bind_eq_ok, okOr_eq_ok, reject_eq_ok, Option.mem_def]
  constructor
  · rintro ⟨found, busId, hbus, _, hneeds, _, hfrequency, latency, hlatency, jitter, hjitter,
      routes, hroutes, -⟩
    refine ⟨busId, hbus, (hmetadata busId).mp hneeds, (checkFrequency_eq_ok busId).mp hfrequency,
      ?_, ?_, exists_dmaRoutes_eq_ok.mp ⟨routes, hroutes⟩⟩
    · exact exists_checkTime_eq_ok.mp ⟨latency, hlatency⟩
    · exact exists_checkTime_eq_ok.mp ⟨jitter, hjitter⟩
  · rintro ⟨busId, hbus, hmeets⟩
    obtain ⟨latency, hlatency⟩ := exists_checkTime_eq_ok.mpr hmeets.latency
    obtain ⟨jitter, hjitter⟩ := exists_checkTime_eq_ok.mpr hmeets.jitter
    obtain ⟨routes, hroutes⟩ := exists_dmaRoutes_eq_ok.mpr hmeets.dma
    exact ⟨_, busId, hbus, (), (hmetadata busId).mpr hmeets.declared, (),
      (checkFrequency_eq_ok busId).mpr hmeets.frequency, latency, hlatency, jitter, hjitter, routes,
      hroutes, rfl⟩

/-- Every bus of the family is as good as the first: it meets the requirement only where the first
does. -/
def FirstSuffices (κ : Type) [Numbers κ] (chip : Option ChipPackageFile) (req : BusReq)
    (instances : List String) : Prop :=
  ∀ first ∈ instances.head?, ∀ busId ∈ instances.tail,
    InstanceMeets κ chip req busId → InstanceMeets κ chip req first

/-- A connector is accepted exactly for the buses that it offers, if and only if no bus after the
first is better than the first. -/
theorem busSatisfied_complete_iff (chip : Option ChipPackageFile) (caps : PinCapabilities)
    (req : BusReq) :
    ((∃ found, busSatisfied κ chip caps req = .ok found) ↔
      ∃ busId ∈ busInstances caps req.kind, InstanceMeets κ chip req busId) ↔
    FirstSuffices κ chip req (busInstances caps req.kind) := by
  rw [exists_busSatisfied_eq_ok]
  cases busInstances caps req.kind with
  | nil => simp [FirstSuffices]
  | cons first later =>
    simp only [List.head?_cons, Option.mem_def, Option.some.injEq, FirstSuffices, List.tail_cons,
      List.exists_mem_cons_iff]
    grind

end Meets

/-! ## A connector of two buses -/

/-- A slow bus and a fast one. -/
def twoBusChip : ChipPackageFile where
  memory := none
  boot := none
  firmware := none
  peripherals :=
    { timers := []
      spi := [⟨"spi1", some "1 MHz", none, none⟩, ⟨"spi2", some "10 MHz", none, none⟩]
      i2c := []
      uart := []
      adc := []
      dma := [] }
  pinFunctions := .ofList [("PA5", ["spi1.sck", "spi2.sck"])]

/-- The functions of the clock pin. -/
def clockPin : PinCapabilities := .ofList [("sck", ["spi1.sck", "spi2.sck"])]

def fastBus : BusReq where
  kind := "spi"
  minFrequency := some "5 MHz"
  dmaSignals := []
  maxLatency := none
  maxJitter := none

theorem instanceMeets_fastBus : InstanceMeets ℚ (some twoBusChip) fastBus "spi2" where
  declared _ := by decide +kernel
  frequency := (checkFrequency_eq_ok "spi2").mp (by decide +kernel)
  latency := by rintro _ ⟨⟩
  jitter := by rintro _ ⟨⟩
  dma := by rintro _ ⟨⟩

/-- The fast bus meets the requirement, but the connector is rejected for the slow one. -/
theorem busSatisfied_misses_fastBus :
    ¬ ((∃ found, busSatisfied ℚ (some twoBusChip) clockPin fastBus = .ok found) ↔
      ∃ busId ∈ busInstances clockPin fastBus.kind,
        InstanceMeets ℚ (some twoBusChip) fastBus busId) := by
  intro hcomplete
  have hnamed : "spi2" ∈ busInstances clockPin fastBus.kind := by
    apply List.mem_of_mem_tail
    decide +kernel
  obtain ⟨found, hfound⟩ := hcomplete.mpr ⟨"spi2", hnamed, instanceMeets_fastBus⟩
  have hfails : (busSatisfied ℚ (some twoBusChip) clockPin fastBus).isOk = false := by
    decide +kernel
  rw [hfound] at hfails
  cases hfails

end Dryer.MachineResolver
