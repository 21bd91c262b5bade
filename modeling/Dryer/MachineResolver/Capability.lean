import Dryer.Library.OrderedMaps
import Dryer.Library.Result
import Dryer.MachineResolver.ResolvedGraph

/-!
# Capabilities of connectors

The functions that a chip gives to the pins of a connector, and whether they meet the bus that a
device asks for.
-/
namespace Dryer.MachineResolver
open Library MachineSchema PackageModel

/-! ## Pins -/

/-- Without a table of pin functions there are no capabilities. -/
def derivePinCapabilities (chip : Option ChipPackageFile) (connector : Connector) :
    PinCapabilities :=
  match chip with
  | none => ∅
  | some chip =>
    if chip.pinFunctions.isEmpty then ∅
    else
      let out := connector.pins.filterMap fun _ pin => chip.pinFunctions[pin]?
      match connector.pin.bind fun pin => chip.pinFunctions[pin]? with
      | some f => out.insert "pin" f
      | none => out

/-- The kind of connector that a claiming attribute stands for. -/
def claimKind (attr : String) : Option String :=
  if attr = "connected_to" then some "stepper_driver_socket"
  else if attr = "output" then some "power_output"
  else if attr = "input" then some "analog_input"
  else none

/-! ## Buses -/

structure BusMatch where
  busId : String
  latency : Option String
  jitter : Option String
  dmaRoutes : Std.TreeMap String String

/-- The texts of the evidence that a bus meets a requirement. -/
def BusMatch.constraints (found : BusMatch) (requirement : BusReq) : List String :=
  let frequency := (requirement.minFrequency.map fun f => s!" (>= {f})").getD ""
  let latency := match found.latency, requirement.maxLatency with
    | some actual, some limit => [s!"worst-case bus latency {actual} <= {limit}"]
    | _, _ => []
  let jitter := match found.jitter, requirement.maxJitter with
    | some actual, some limit => [s!"worst-case bus jitter {actual} <= {limit}"]
    | _, _ => []
  [s!"{requirement.kind} bus via {found.busId}{frequency}"] ++ latency ++ jitter ++
    found.dmaRoutes.toList.map fun (signal, channel) =>
      s!"DMA route {found.busId}.{signal} via {channel}"

/-- The family of a bus: its name without the number. -/
def busFamily (busId : String) : String :=
  String.ofList (busId.toList.reverse.dropWhile isAsciiDigit).reverse

/-- The first bus of the family that a function of a pin names. -/
def busOf (caps : PinCapabilities) (kind : String) : Option String :=
  caps.values.flatten.findSome? fun tok =>
    let busId := firstSegment tok '.'
    if busFamily busId = kind then some busId else none

section Bus

variable (κ : Type) [Numbers κ]

def parseQuantity (raw : String) (dimension : Dimension) : Except String (Quantity κ) :=
  (Quantity.parseAs raw dimension).mapError QuantityError.toText

def checkFrequency (busId : String) (declared : Option Bus) (minRaw : Option String) :
    Except String Unit :=
  match minRaw with
  | none => .ok ()
  | some minRaw => do
    let min ← parseQuantity κ minRaw .frequency
    let frequency ← okOr (declared.bind Bus.maxFrequency)
      s!"bus '{busId}' declares no max_frequency (required >= {minRaw})"
    let actual ← parseQuantity κ frequency .frequency
    reject (actual.value < min.value)
      s!"bus '{busId}' max_frequency {frequency} < required {minRaw}"

def checkTime (busId field : String) (actual limit : Option String) :
    Except String (Option String) :=
  match limit with
  | none => .ok none
  | some limit => do
    let actual ← okOr actual s!"bus '{busId}' declares no {field} (required <= {limit})"
    let actualQuantity ← parseQuantity κ actual .time
    let limitQuantity ← parseQuantity κ limit .time
    reject (limitQuantity.value < actualQuantity.value)
      s!"bus '{busId}' {field} {actual} > required maximum {limit}"
    return some actual

def routeSignal (chip : ChipPackageFile) (busId : String) (routes : Std.TreeMap String String)
    (signal : String) : Except String (Std.TreeMap String String) := do
  let route := s!"{busId}.{signal}"
  let channel ← okOr (chip.dmaChannelForRoute route) s!"no DMA channel routes '{route}'"
  return routes.insert signal channel.id

def dmaRoutes (chip : Option ChipPackageFile) (busId : String) (signals : List String) :
    Except String (Std.TreeMap String String) :=
  if signals.isEmpty then .ok ∅
  else do
    let chip ← okOr chip "no chip table to verify DMA routing against"
    signals.foldlM (routeSignal chip busId) ∅

def busSatisfied (chip : Option ChipPackageFile) (caps : PinCapabilities) (req : BusReq) :
    Except String BusMatch := do
  let busId ← okOr (busOf caps req.kind) s!"no {req.kind} function on any connector pin"
  let needsMetadata := req.minFrequency.isSome || req.maxLatency.isSome ||
    req.maxJitter.isSome || !req.dmaSignals.isEmpty
  let declared := chip.bind fun chip => chip.buses.find? fun bus => bus.id = busId
  reject (needsMetadata && declared.isNone) s!"bus '{busId}' has no declared capability metadata"
  checkFrequency κ busId declared req.minFrequency
  let latency ← checkTime κ busId "worst_case_latency" (declared.bind Bus.worstCaseLatency)
    req.maxLatency
  let jitter ← checkTime κ busId "worst_case_jitter" (declared.bind Bus.worstCaseJitter)
    req.maxJitter
  let dmaRoutes ← dmaRoutes chip busId req.dmaSignals
  return { busId, latency, jitter, dmaRoutes }

/-! ## What a bus that is accepted meets -/

/-- A declared frequency reaches a minimum, where there is one. -/
def ReachesMinimum (actual min : Option String) : Prop :=
  ∀ minRaw, min = some minRaw → ∃ actualRaw, actual = some actualRaw ∧
    ∃ a m : Quantity κ, Quantity.parseAs actualRaw .frequency = .ok a ∧
      Quantity.parseAs minRaw .frequency = .ok m ∧ m.value ≤ a.value

/-- A declared time keeps a limit, where there is one. -/
def KeepsLimit (actual limit : Option String) : Prop :=
  ∀ limitRaw, limit = some limitRaw → ∃ actualRaw, actual = some actualRaw ∧
    ∃ a l : Quantity κ, Quantity.parseAs actualRaw .time = .ok a ∧
      Quantity.parseAs limitRaw .time = .ok l ∧ a.value ≤ l.value

/-- The requirement of a device, met by a bus that the pins of a connector name. -/
structure BusMeets (chip : Option ChipPackageFile) (caps : PinCapabilities) (req : BusReq)
    (busId : String) : Prop where
  named : ∃ (signal : String) (funcs : List String), caps[signal]? = some funcs ∧
    ∃ tok ∈ funcs, firstSegment tok '.' = busId
  family : busFamily busId = req.kind
  declared : req.minFrequency.isSome ∨ req.maxLatency.isSome ∨ req.maxJitter.isSome →
    ∃ chipFile, chip = some chipFile ∧ ∃ bus ∈ chipFile.buses, bus.id = busId ∧
      ReachesMinimum κ bus.maxFrequency req.minFrequency ∧
      KeepsLimit κ bus.worstCaseLatency req.maxLatency ∧
      KeepsLimit κ bus.worstCaseJitter req.maxJitter
  dma : ∀ signal ∈ req.dmaSignals, ∃ chipFile, chip = some chipFile ∧
    ∃ channel ∈ chipFile.peripherals.dma, s!"{busId}.{signal}" ∈ channel.routes

variable {κ}

theorem parseQuantity_eq_ok {raw : String} {dimension : Dimension} {quantity : Quantity κ} :
    parseQuantity κ raw dimension = .ok quantity ↔
      Quantity.parseAs raw dimension = .ok quantity := mapError_eq_ok

theorem busOf_eq_some {caps : PinCapabilities} {kind busId : String}
    (h : busOf caps kind = some busId) : busFamily busId = kind ∧
      ∃ (signal : String) (funcs : List String), caps[signal]? = some funcs ∧
        ∃ tok ∈ funcs, firstSegment tok '.' = busId := by
  obtain ⟨tok, htok, hfound⟩ := List.exists_of_findSome?_eq_some h
  dsimp only at hfound
  split at hfound
  · rename_i hfamily
    obtain rfl := Option.some.inj hfound
    obtain ⟨funcs, hfuncs, hmem⟩ := List.mem_flatten.mp htok
    obtain ⟨signal, hsignal⟩ := mem_values.mp hfuncs
    exact ⟨hfamily, signal, funcs, hsignal, tok, hmem, rfl⟩
  · cases hfound

theorem keepsLimit_of_checkTime {busId field : String} {actual limit found : Option String}
    (h : checkTime κ busId field actual limit = .ok found) : KeepsLimit κ actual limit := by
  rintro limitRaw rfl
  simp only [checkTime, bind_eq_ok, okOr_eq_ok, parseQuantity_eq_ok, reject_eq_ok] at h
  obtain ⟨raw, hraw, a, ha, l, hl, -, hle, -⟩ := h
  exact ⟨raw, hraw, a, l, ha, hl, not_lt.mp hle⟩

theorem reachesMinimum_of_checkFrequency {busId : String} {declared : Option Bus}
    {min : Option String} {u : Unit} (h : checkFrequency κ busId declared min = .ok u) :
    ReachesMinimum κ (declared.bind Bus.maxFrequency) min := by
  rintro minRaw rfl
  simp only [checkFrequency, bind_eq_ok, okOr_eq_ok, parseQuantity_eq_ok, reject_eq_ok] at h
  obtain ⟨m, hm, raw, hraw, a, ha, hle⟩ := h
  exact ⟨raw, hraw, a, m, ha, hm, not_lt.mp hle⟩

theorem mem_routes_of_foldlM {chip : ChipPackageFile} {busId : String} {signals : List String}
    {routes found : Std.TreeMap String String}
    (h : signals.foldlM (routeSignal chip busId) routes = .ok found) :
    ∀ signal ∈ signals, ∃ channel ∈ chip.peripherals.dma,
      s!"{busId}.{signal}" ∈ channel.routes := by
  induction signals generalizing routes with
  | nil => simp
  | cons first signals ih =>
    simp only [List.foldlM_cons, bind_eq_ok, routeSignal, okOr_eq_ok] at h
    obtain ⟨next, ⟨channel, hchannel, -⟩, hrest⟩ := h
    intro signal hsignal
    obtain rfl | hlater := List.mem_cons.mp hsignal
    · obtain ⟨hmem, hroute⟩ := List.mem_filter.mp (List.argmin_mem hchannel)
      exact ⟨channel, hmem, List.contains_iff_mem.mp hroute⟩
    · exact ih hrest signal hlater

theorem busMeets_of_busSatisfied {chip : Option ChipPackageFile} {caps : PinCapabilities}
    {req : BusReq} {found : BusMatch} (h : busSatisfied κ chip caps req = .ok found) :
    BusMeets κ chip caps req found.busId := by
  simp only [busSatisfied, bind_eq_ok, okOr_eq_ok, reject_eq_ok] at h
  obtain ⟨busId, hbus, _, hmetadata, _, hfrequency, latency, hlatency, jitter, hjitter, routes,
    hroutes, hfound⟩ := h
  obtain rfl := Except.ok.inj hfound
  obtain ⟨hfamily, hnamed⟩ := busOf_eq_some hbus
  refine ⟨hnamed, hfamily, ?_, ?_⟩
  · intro hneeded
    cases hdeclared : chip.bind fun chip => chip.buses.find? fun bus => bus.id = busId with
    | none =>
      rw [hdeclared] at hmetadata
      grind
    | some bus =>
      rw [hdeclared] at hlatency hjitter hfrequency
      obtain ⟨chipFile, hchip, hfind⟩ := Option.bind_eq_some_iff.mp hdeclared
      exact ⟨chipFile, hchip, bus, List.mem_of_find?_eq_some hfind,
        by simpa using List.find?_some hfind, reachesMinimum_of_checkFrequency hfrequency,
        keepsLimit_of_checkTime hlatency, keepsLimit_of_checkTime hjitter⟩
  · intro signal hsignal
    unfold dmaRoutes at hroutes
    split at hroutes
    · rename_i hempty
      rw [List.isEmpty_iff.mp hempty] at hsignal
      cases hsignal
    · simp only [bind_eq_ok, okOr_eq_ok] at hroutes
      obtain ⟨chipFile, hchip, hfold⟩ := hroutes
      exact ⟨chipFile, hchip, mem_routes_of_foldlM hfold signal hsignal⟩

end Bus

end Dryer.MachineResolver
