import Dryer.Library.FixedPoints
import Dryer.MachineResolver.Packages

/-!
# Rounds of package selection

What one choice and one round say of the registry, and the run of the rounds up to the one that
repeats itself.
-/
namespace Dryer.MachineResolver
open Library MachineSchema MachineParser PackageModel

variable {ν ρ : Type}

/-- A choice has an error exactly when it has no version, and all else it reports are warnings. -/
structure Choice.Reported (choice : Choice ν) : Prop where
  errs_eq_nil_iff : choice.errs = [] ↔ choice.version.isSome
  severity_of_mem_errs : ∀ d ∈ choice.errs, d.severity = .error
  severity_of_mem_warns : ∀ d ∈ choice.warns, d.severity = .warning

/-- Two rounds with the same choices and the same constraints. -/
def Round.Agrees (last next : Round ν ρ) : Prop :=
  next.chosen.toList = last.chosen.toList ∧ next.constraints.toList = last.constraints.toList

instance [DecidableEq ν] [DecidableEq ρ] (last next : Round ν ρ) :
    Decidable (last.Agrees next) := inferInstanceAs (Decidable (_ ∧ _))

namespace PackageSearch

variable {search : PackageSearch ν} {constraints : Constraints ρ} {path : String} {version : ν}

/-- A path that is asked for in every round. -/
def IsRoot (search : PackageSearch ν) (path : String) : Prop :=
  path ∈ search.pins.versions ∨ path ∈ search.roots

theorem mem_paths : path ∈ search.paths constraints ↔ search.IsRoot path ∨ path ∈ constraints := by
  simp [paths, IsRoot, Std.TreeSet.mem_toList, Std.TreeMap.mem_keys, or_assoc]

section Severities

variable [Semver ν ρ]

theorem severity_addRequirementSources (diagnostic : Diagnostic) (hasPrimarySource : Bool)
    (requirements : List (RequirementConstraint ρ)) :
    (addRequirementSources ν path diagnostic hasPrimarySource requirements).severity =
      diagnostic.severity := by
  induction requirements generalizing diagnostic hasPrimarySource with
  | nil => rfl
  | cons constraint rest ih =>
    unfold addRequirementSources
    split
    · exact ih diagnostic hasPrimarySource
    · split
      all_goals simp [ih]

theorem severity_pinExcluded (field : String) (pin : ν) (constraint : RequirementConstraint ρ) :
    (pinExcluded path field pin constraint).severity = .error := by
  unfold pinExcluded
  split <;> simp

theorem reported_chooseHighest (available : List ν)
    (requirements : List (RequirementConstraint ρ)) :
    (search.chooseHighest path available requirements).Reported := by
  unfold chooseHighest
  dsimp only
  generalize List.getLast? _ = highest
  cases highest with
  | none => exact ⟨by simp, by simp [noneSatisfies, severity_addRequirementSources], by simp⟩
  | some version =>
    refine ⟨by simp, by simp, ?_⟩
    intro d hd
    dsimp only at hd
    split at hd
    · obtain rfl := List.mem_singleton.mp hd
      rfl
    · simp at hd

end Severities

end PackageSearch

variable [LinearOrder ν] [Semver ν ρ]

/-! ## Dependencies -/

/-- The manifest of a version declares a dependency, in a range that parses. -/
def Declares (registry : LocalRegistry ν) (path : String) (version : ν) (dependency : String)
    (range : ρ) : Prop :=
  ∃ ns name package declaration, splitOnce path '/' = some (ns, name) ∧
    registry.findVersion ns name version = some package ∧
    package.manifest.dependencies[dependency]? = some declaration ∧
    declaration.requirement ν = .ok range

/-- Some version of the first package declares a dependency on the second one. -/
def DependsOn (registry : LocalRegistry ν) (a b : String) : Prop :=
  ∃ version, ∃ range : ρ, Declares registry a version b range

/-- A chosen version declares a dependency on a package in this range. -/
def RequiredIn (registry : LocalRegistry ν) (chosen : Std.TreeMap String ν) (path : String)
    (range : ρ) : Prop :=
  ∃ requirer version, chosen[requirer]? = some version ∧
    Declares registry requirer version path range

namespace PackageSearch

variable {search : PackageSearch ν} {constraints : Constraints ρ} {path : String} {version : ν}

theorem exists_mem_requirementsOf {dependency : String} {range : ρ} :
    (∃ constraint, (dependency, constraint) ∈ search.requirementsOf (path, version) ∧
      constraint.requirement = range) ↔ Declares search.registry path version dependency range := by
  unfold Declares
  cases hsplit : splitOnce path '/' with
  | none => simp [requirementsOf, hsplit]
  | some parts =>
    obtain ⟨ns, name⟩ := parts
    cases hfound : search.registry.findVersion ns name version with
    | none =>
      simp only [requirementsOf, hsplit, hfound, List.not_mem_nil, false_and, exists_false,
        Option.some.injEq, Prod.mk.injEq, false_iff]
      rintro ⟨_, _, _, _, ⟨rfl, rfl⟩, hfound', -⟩
      simp [hfound] at hfound'
    | some package =>
      simp only [requirementsOf, hsplit, hfound, List.mem_filterMap, Prod.exists,
        Std.TreeMap.mem_toList_iff_getElem?_eq_some]
      constructor
      · rintro ⟨_, ⟨name', declaration, hdeclared, hrequired⟩, rfl⟩
        cases hparsed : declaration.requirement ν with
        | error => simp [hparsed] at hrequired
        | ok range =>
          simp only [hparsed, Option.some.injEq, Prod.mk.injEq] at hrequired
          obtain ⟨rfl, rfl⟩ := hrequired
          exact ⟨ns, name, package, declaration, rfl, hfound, hdeclared, hparsed⟩
      · rintro ⟨_, _, package', declaration, heq, hfound', hdeclared, hparsed⟩
        obtain ⟨rfl, rfl⟩ := Prod.mk.inj (Option.some.inj heq)
        obtain rfl := Option.some.inj (hfound.symm.trans hfound')
        let source := search.spans[package.reference.toText]?.bind fun index =>
          index.locateSpan s!"dependencies.{dependency}"
        refine ⟨⟨path, range, source⟩, ⟨dependency, declaration, hdeclared, ?_⟩, rfl⟩
        simp [hparsed, source]

/-- The ranges of the derived constraints on a path are those that the chosen versions declare. -/
theorem mem_derive_iff_requiredIn (search : PackageSearch ν) {chosen : Std.TreeMap String ν}
    {range : ρ} :
    (∃ constraint ∈ (search.derive chosen)[path]?.getD [], constraint.requirement = range) ↔
      RequiredIn search.registry chosen path range := by
  simp only [derive, mem_getD_collect, List.mem_flatMap, Prod.exists,
    Std.TreeMap.mem_toList_iff_getElem?_eq_some, RequiredIn, ← exists_mem_requirementsOf]
  constructor
  · rintro ⟨constraint, ⟨requirer, version, hchosen, hmem⟩, hrange⟩
    exact ⟨requirer, version, hchosen, constraint, hmem, hrange⟩
  · rintro ⟨requirer, version, hchosen, constraint, hmem, hrange⟩
    exact ⟨constraint, ⟨requirer, version, hchosen, hmem⟩, hrange⟩

theorem mem_derive {chosen : Std.TreeMap String ν} :
    path ∈ search.derive chosen ↔ ∃ range : ρ, RequiredIn search.registry chosen path range := by
  simp only [← mem_derive_iff_requiredIn search, derive, mem_collect, mem_getD_collect]
  constructor
  · rintro ⟨constraint, hmem⟩
    exact ⟨_, constraint, hmem, rfl⟩
  · rintro ⟨_, constraint, hmem, -⟩
    exact ⟨constraint, hmem⟩

/-! ## Choices -/

/-- The versions of a path in the registry that are in all required ranges. -/
def Allowed (search : PackageSearch ν) (constraints : Constraints ρ) (path : String) : Set ν :=
  {version | ∃ ns name, splitOnce path '/' = some (ns, name) ∧
    version ∈ search.registry.versions ns name ∧
    ∀ constraint ∈ constraints[path]?.getD [],
      Semver.reqMatches constraint.requirement version = true}

theorem mem_allowed {ns name : String} (hsplit : splitOnce path '/' = some (ns, name)) :
    version ∈ search.Allowed constraints path ↔ version ∈ search.registry.versions ns name ∧
      ∀ constraint ∈ constraints[path]?.getD [],
        Semver.reqMatches constraint.requirement version = true := by
  simp [Allowed, hsplit]

/-- A pin is chosen where it is allowed, and nothing else is. -/
theorem choose_of_pin {pin : ν} (hpin : search.pins.versions[path]? = some pin) :
    (search.choose constraints path).version = some version ↔
      version = pin ∧ pin ∈ search.Allowed constraints path := by
  cases hsplit : splitOnce path '/' with
  | none => simp [choose, Allowed, hsplit]
  | some parts =>
    obtain ⟨ns, name⟩ := parts
    rw [mem_allowed hsplit]
    simp only [choose, hsplit, hpin, choosePinned]
    split
    · rename_i hempty
      simp [List.isEmpty_iff.mp hempty]
    · split
      · rename_i hmissing
        simp [hmissing]
      · rename_i havailable
        have hnone : ((constraints[path]?.getD []).filter fun constraint =>
            !Semver.reqMatches constraint.requirement pin).isEmpty ↔
            ∀ constraint ∈ constraints[path]?.getD [],
              Semver.reqMatches constraint.requirement pin = true := by
          simp [List.filter_eq_nil_iff]
        simp only [hnone, not_not.mp havailable, true_and]
        split
        · rename_i hmatch
          exact ⟨fun h => ⟨(Option.some.inj h).symm, hmatch⟩, fun h => congrArg some h.1.symm⟩
        · rename_i hmatch
          exact ⟨fun h => absurd h (by simp), fun h => absurd h.2 hmatch⟩

/-- Without a pin the greatest allowed version is chosen. -/
theorem choose_of_no_pin (hpin : search.pins.versions[path]? = none) :
    (search.choose constraints path).version = some version ↔
      IsGreatest (search.Allowed constraints path) version := by
  cases hsplit : splitOnce path '/' with
  | none => simp [choose, Allowed, hsplit, IsGreatest]
  | some parts =>
    obtain ⟨ns, name⟩ := parts
    have hversions : (search.registry.versions ns name).Pairwise (· ≤ ·) :=
      LocalRegistry.versions_sorted
    have hsorted := hversions.filter fun version =>
      (constraints[path]?.getD []).all fun constraint =>
        Semver.reqMatches constraint.requirement version
    have hallowed : search.Allowed constraints path =
        {version | version ∈ (search.registry.versions ns name).filter fun version =>
          (constraints[path]?.getD []).all fun constraint =>
            Semver.reqMatches constraint.requirement version} := by
      ext version
      simp [mem_allowed hsplit]
    rw [hallowed, ← getLast?_eq_some_iff_isGreatest hsorted]
    simp only [choose, hsplit, hpin, chooseHighest]
    split
    · rename_i hempty
      simp [List.isEmpty_iff.mp hempty]
    · split
      all_goals
        rename_i hlast
        simp [hlast]

theorem reported_choosePinned (pin : ν) (available : List ν)
    (requirements : List (RequirementConstraint ρ)) :
    (search.choosePinned path pin available requirements).Reported := by
  unfold choosePinned
  split
  · exact ⟨by simp, by simp [pinNotAvailable], by simp⟩
  · dsimp only
    generalize List.filter _ requirements = excluding
    refine ⟨?_, ?_, by simp⟩
    · cases excluding <;> simp
    · intro d hd
      obtain ⟨constraint, -, rfl⟩ := List.mem_map.mp hd
      exact severity_pinExcluded ..

theorem choose_of_splitOnce_eq_none (hsplit : splitOnce path '/' = none) :
    search.choose constraints path = { version := none, errs := [], warns := [] } := by
  simp [choose, hsplit]

theorem reported_choose (hsplit : (splitOnce path '/').isSome) :
    (search.choose constraints path).Reported := by
  obtain ⟨⟨ns, name⟩, hsplit⟩ := Option.isSome_iff_exists.mp hsplit
  unfold choose
  simp only [hsplit]
  split
  · exact ⟨by simp, by simp [notInRegistry], by simp⟩
  · split
    · exact reported_choosePinned ..
    · exact reported_chooseHighest ..

/-! ## One round -/

theorem getElem?_round : (search.round constraints).chosen[path]? = some version ↔
    (search.IsRoot path ∨ path ∈ constraints) ∧
      (search.choose constraints path).version = some version := by
  rw [← mem_paths]
  exact getElem?_mapOfKeys Std.TreeSet.distinct_toList

theorem errs_round_eq_nil : (search.round constraints).errs = [] ↔
    ∀ path, search.IsRoot path ∨ path ∈ constraints → (splitOnce path '/').isSome →
      (search.choose constraints path).version.isSome := by
  simp only [round, List.flatMap_eq_nil_iff, mem_paths]
  apply forall₂_congr
  intro path _
  cases hsplit : splitOnce path '/' with
  | none => simp [choose_of_splitOnce_eq_none hsplit]
  | some =>
    have hreported : (search.choose constraints path).Reported := reported_choose (by simp [hsplit])
    simp [hreported.errs_eq_nil_iff]

theorem severity_of_mem_errs_round {d : Diagnostic} (h : d ∈ (search.round constraints).errs) :
    d.severity = .error := by
  obtain ⟨path, -, hd⟩ := List.mem_flatMap.mp h
  cases hsplit : splitOnce path '/' with
  | none => simp [choose_of_splitOnce_eq_none hsplit] at hd
  | some => exact (reported_choose (by simp [hsplit])).severity_of_mem_errs d hd

theorem severity_of_mem_warns_round {d : Diagnostic} (h : d ∈ (search.round constraints).warns) :
    d.severity = .warning := by
  obtain ⟨path, -, hd⟩ := List.mem_flatMap.mp h
  cases hsplit : splitOnce path '/' with
  | none => simp [choose_of_splitOnce_eq_none hsplit] at hd
  | some => exact (reported_choose (by simp [hsplit])).severity_of_mem_warns d hd

/-! ## The run of the rounds -/

/-- A round that begins with the constraints of the one before it. -/
def next (search : PackageSearch ν) (last : Round ν ρ) : Round ν ρ := search.round last.constraints

/-- What a number of rounds leave. -/
def roundAt (search : PackageSearch ν) (n : ℕ) : Round ν ρ := search.next^[n] .start

theorem constraints_roundAt (search : PackageSearch ν) (n : ℕ) :
    (search.roundAt n).constraints = search.derive (search.roundAt n).chosen := by
  cases n with
  | zero => rfl
  | succ n =>
    rw [roundAt, Function.iterate_succ_apply']
    rfl

/-- What a round chooses, from the choices of the round before it. -/
theorem getElem?_roundAt_succ {n : ℕ} : (search.roundAt (n + 1)).chosen[path]? = some version ↔
    (search.IsRoot path ∨
      ∃ range : ρ, RequiredIn search.registry (search.roundAt n).chosen path range) ∧
    (search.choose (search.derive (search.roundAt n).chosen) path).version = some version := by
  have hnext : search.roundAt (n + 1) = search.next (search.roundAt n) :=
    Function.iterate_succ_apply' ..
  rw [hnext, next, getElem?_round, constraints_roundAt, mem_derive]

theorem rounds_eq_iterateUntil [DecidableEq ρ] (fuel : ℕ) (last : Round ν ρ) :
    search.rounds fuel last = iterateUntil Round.Agrees search.next fuel last := by
  induction fuel generalizing last with
  | zero => rfl
  | succ fuel ih =>
    unfold rounds iterateUntil
    rw [← ih]
    rfl

theorem next_eq_of_agrees {a b : Round ν ρ} (h : a.Agrees b) : search.next a = search.next b := by
  have hget := toList_eq_iff.mp h.2
  have hkeys : a.constraints.keys = b.constraints.keys := by
    rw [← Std.TreeMap.map_fst_toList_eq_keys, ← Std.TreeMap.map_fst_toList_eq_keys, h.2]
  have hpaths : search.paths a.constraints = search.paths b.constraints := by
    unfold paths
    rw [hkeys]
  have hchoose : search.choose a.constraints = search.choose b.constraints := by
    funext path
    simp only [choose, hget]
  simp only [next, round, hpaths, hchoose]

/-- Rounds that converge end with one that repeats itself. -/
theorem rounds_settled [DecidableEq ρ] {fuel : ℕ} (h : (search.rounds fuel .start).2 = true) :
    ∃ n, search.rounds fuel .start = (search.roundAt n, true) ∧
      Function.IsFixedPt search.next (search.roundAt n) := by
  rcases hrounds : search.rounds fuel .start with ⟨last, converged⟩
  obtain rfl : converged = true := by simpa [hrounds] using h
  rw [rounds_eq_iterateUntil] at hrounds
  obtain ⟨n, rfl, hfixed⟩ :=
    isFixedPt_of_iterateUntil (fun _ _ => next_eq_of_agrees) hrounds
  exact ⟨n, rfl, hfixed⟩

end PackageSearch

end Dryer.MachineResolver
