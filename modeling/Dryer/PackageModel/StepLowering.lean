import Dryer.ControlProtocol.Frames
import Dryer.Library.Result
import Dryer.PackageModel.Workflows

/-!
# Step lowering

The commands that the steps of a workflow are lowered to. A step names an action and gives its
arguments by name, and an error names the first argument that is missing or not of its type.
-/
namespace Dryer.PackageModel
open Library ControlProtocol

/-- A YAML value as `as_str`, `as_i64` and `as_u64` of `serde_yaml` read it, tags left out: text, an
integer, or anything else. -/
inductive Argument where
  | text (s : String)
  | integer (n : ℤ)
  | other

namespace Argument

def asStr : Argument → Option String
  | text s => some s
  | _ => none

def asI64 : Argument → Option Int64
  | integer n => if -2 ^ 63 ≤ n ∧ n < 2 ^ 63 then some (.ofInt n) else none
  | _ => none

def asU64 : Argument → Option UInt64
  | integer n => if 0 ≤ n ∧ n < 2 ^ 64 then some (.ofNat n.toNat) else none
  | _ => none

variable {v : Argument}

theorem asStr_eq_some {s : String} : v.asStr = some s ↔ v = text s := by
  cases v with
  | text s' => simp [asStr]
  | integer n => simp [asStr]
  | other => simp [asStr]

theorem asI64_eq_some {value : Int64} : v.asI64 = some value ↔ v = integer value.toInt := by
  cases v with
  | text s => simp [asI64]
  | other => simp [asI64]
  | integer n =>
    simp only [asI64, Option.ite_none_right_eq_some, Option.some.injEq, integer.injEq]
    constructor
    · rintro ⟨⟨hlow, hhigh⟩, rfl⟩
      rw [Int64.toInt_ofInt_of_le hlow hhigh]
    · rintro rfl
      exact ⟨⟨value.le_toInt, value.toInt_lt⟩, Int64.ofInt_toInt value⟩

theorem asU64_eq_some {value : UInt64} : v.asU64 = some value ↔ v = integer value.toNat := by
  cases v with
  | text s => simp [asU64]
  | other => simp [asU64]
  | integer n =>
    simp only [asU64, Option.ite_none_right_eq_some, Option.some.injEq, integer.injEq]
    constructor
    · rintro ⟨⟨hlow, hhigh⟩, rfl⟩
      have hsize : n.toNat < UInt64.size := by
        rw [UInt64.size]
        omega
      rw [UInt64.toNat_ofNat_of_lt' hsize, Int.toNat_of_nonneg hlow]
    · rintro rfl
      have hlt := value.toNat_lt
      exact ⟨⟨by omega, by omega⟩, by simp⟩

end Argument

inductive LoweringError where
  | noCallAction
  | unknownAction (action : String)
  | missingArgument (action argument : String)
  | invalidArgumentType (action argument : String)
  deriving DecidableEq

/-- A step with the values of its arguments. -/
structure BoundStep where
  call : Option String
  withArguments : Std.TreeMap String Argument

/-- The step as the checks of its package see it. -/
def BoundStep.toStep (step : BoundStep) : WorkflowStep where
  call := step.call
  withArguments := step.withArguments.keys

section Extract

variable {α : Type} (read : Argument → Option α) (args : Std.TreeMap String Argument)
  (action name : String)

/-- An argument of a type that is read in one way. -/
def extract : Except LoweringError α := do
  let value ← okOr args[name]? (.missingArgument action name)
  okOr (read value) (.invalidArgumentType action name)

def extractString : Except LoweringError String := extract Argument.asStr args action name

def extractI64 : Except LoweringError Int64 := extract Argument.asI64 args action name

def extractU64 : Except LoweringError UInt64 := extract Argument.asU64 args action name

end Extract

def BoundStep.lower (step : BoundStep) : Except LoweringError Command := do
  let call ← okOr step.call .noCallAction
  match call with
  | "heartbeat" => return .heartbeat
  | "system.heartbeat" => return .heartbeat
  | "heater.set_target" => do
    let heater ← extractString step.withArguments call "heater"
    let targetMilliC ← extractI64 step.withArguments call "target_milli_c"
    return .setHeaterTarget heater targetMilliC
  | "motion.home" => do
    let axis ← extractString step.withArguments call "axis"
    let rateUmS ← extractU64 step.withArguments call "rate_um_s"
    return .home axis rateUmS
  | "motion.move" => do
    let axis ← extractString step.withArguments call "axis"
    let distanceUm ← extractI64 step.withArguments call "distance_um"
    let rateUmS ← extractU64 step.withArguments call "rate_um_s"
    return .move axis distanceUm rateUmS
  | other => throw (.unknownAction other)

/-! ## Calls -/

/-- The actions that are a command. -/
def actionsOf : Command → List String
  | .heartbeat => ["heartbeat", "system.heartbeat"]
  | .setHeaterTarget .. => ["heater.set_target"]
  | .home .. => ["motion.home"]
  | .move .. => ["motion.move"]

/-- The fields of a command as arguments. -/
def argumentsOf : Command → List (String × Argument)
  | .heartbeat => []
  | .setHeaterTarget heater targetMilliC =>
    [("heater", .text heater), ("target_milli_c", .integer targetMilliC.toInt)]
  | .home axis rateUmS => [("axis", .text axis), ("rate_um_s", .integer rateUmS.toNat)]
  | .move axis distanceUm rateUmS =>
    [("axis", .text axis), ("distance_um", .integer distanceUm.toInt),
      ("rate_um_s", .integer rateUmS.toNat)]

/-- A step that calls for a command. It may have arguments that the command does not read. -/
structure Calls (step : BoundStep) (command : Command) : Prop where
  action : ∃ action ∈ actionsOf command, step.call = some action
  arguments : ∀ entry ∈ argumentsOf command, step.withArguments[entry.1]? = some entry.2

variable {α : Type} {read : Argument → Option α} {args : Std.TreeMap String Argument}
  {action name : String} {step : BoundStep}

theorem extract_eq_ok {a : α} :
    extract read args action name = .ok a ↔ ∃ v, args[name]? = some v ∧ read v = some a := by
  simp only [extract, bind_eq_ok, okOr_eq_ok]

theorem extractString_eq_ok {s : String} :
    extractString args action name = .ok s ↔ args[name]? = some (.text s) := by
  simp only [extractString, extract_eq_ok, Argument.asStr_eq_some, exists_eq_right]

theorem extractI64_eq_ok {value : Int64} :
    extractI64 args action name = .ok value ↔ args[name]? = some (.integer value.toInt) := by
  simp only [extractI64, extract_eq_ok, Argument.asI64_eq_some, exists_eq_right]

theorem extractU64_eq_ok {value : UInt64} :
    extractU64 args action name = .ok value ↔ args[name]? = some (.integer value.toNat) := by
  simp only [extractU64, extract_eq_ok, Argument.asU64_eq_some, exists_eq_right]

theorem lower_eq_ok_iff {command : Command} : step.lower = .ok command ↔ Calls step command := by
  simp only [BoundStep.lower, bind_eq_ok, okOr_eq_ok]
  constructor
  · rintro ⟨call, hcall, h⟩
    split at h
    · obtain rfl := Except.ok.inj h
      exact ⟨⟨_, by simp [actionsOf], hcall⟩, by simp [argumentsOf]⟩
    · obtain rfl := Except.ok.inj h
      exact ⟨⟨_, by simp [actionsOf], hcall⟩, by simp [argumentsOf]⟩
    · simp only [bind_eq_ok, extractString_eq_ok, extractI64_eq_ok] at h
      obtain ⟨heater, hheater, target, htarget, h⟩ := h
      obtain rfl := Except.ok.inj h
      exact ⟨⟨_, by simp [actionsOf], hcall⟩, by simp [argumentsOf, hheater, htarget]⟩
    · simp only [bind_eq_ok, extractString_eq_ok, extractU64_eq_ok] at h
      obtain ⟨axis, haxis, rate, hrate, h⟩ := h
      obtain rfl := Except.ok.inj h
      exact ⟨⟨_, by simp [actionsOf], hcall⟩, by simp [argumentsOf, haxis, hrate]⟩
    · simp only [bind_eq_ok, extractString_eq_ok, extractI64_eq_ok, extractU64_eq_ok] at h
      obtain ⟨axis, haxis, distance, hdistance, rate, hrate, h⟩ := h
      obtain rfl := Except.ok.inj h
      exact ⟨⟨_, by simp [actionsOf], hcall⟩, by simp [argumentsOf, haxis, hdistance, hrate]⟩
    · cases h
  · rintro ⟨⟨action, haction, hcall⟩, harguments⟩
    refine ⟨action, hcall, ?_⟩
    cases command with
    | heartbeat =>
      simp only [actionsOf, List.mem_cons, List.not_mem_nil, or_false] at haction
      obtain rfl | rfl := haction
      · rfl
      · rfl
    | setHeaterTarget heater target =>
      obtain rfl := List.mem_singleton.mp haction
      simp only [argumentsOf, List.forall_mem_cons, List.not_mem_nil, false_imp_iff,
        implies_true, and_true] at harguments
      simp only [bind_eq_ok, extractString_eq_ok, extractI64_eq_ok]
      exact ⟨heater, harguments.1, target, harguments.2, rfl⟩
    | home axis rate =>
      obtain rfl := List.mem_singleton.mp haction
      simp only [argumentsOf, List.forall_mem_cons, List.not_mem_nil, false_imp_iff,
        implies_true, and_true] at harguments
      simp only [bind_eq_ok, extractString_eq_ok, extractU64_eq_ok]
      exact ⟨axis, harguments.1, rate, harguments.2, rfl⟩
    | move axis distance rate =>
      obtain rfl := List.mem_singleton.mp haction
      simp only [argumentsOf, List.forall_mem_cons, List.not_mem_nil, false_imp_iff,
        implies_true, and_true] at harguments
      simp only [bind_eq_ok, extractString_eq_ok, extractI64_eq_ok, extractU64_eq_ok]
      exact ⟨axis, harguments.1, distance, harguments.2.1, rate, harguments.2.2, rfl⟩

/-! ## Faults -/

inductive ArgumentType where
  | text
  | signed
  | unsigned

def ArgumentType.accepts : ArgumentType → Argument → Bool
  | text, v => v.asStr.isSome
  | signed, v => v.asI64.isSome
  | unsigned, v => v.asU64.isSome

/-- The parameters of an action, in the order in which they are read. -/
def parametersOf : String → Option (List (String × ArgumentType))
  | "heartbeat" => some []
  | "system.heartbeat" => some []
  | "heater.set_target" => some [("heater", .text), ("target_milli_c", .signed)]
  | "motion.home" => some [("axis", .text), ("rate_um_s", .unsigned)]
  | "motion.move" => some [("axis", .text), ("distance_um", .signed), ("rate_um_s", .unsigned)]
  | _ => none

/-- What is wrong with the argument of a parameter. -/
def faultAt (args : Std.TreeMap String Argument) (action : String) :
    String × ArgumentType → Option LoweringError
  | (name, type) =>
    match args[name]? with
    | none => some (.missingArgument action name)
    | some v => if type.accepts v then none else some (.invalidArgumentType action name)

/-- What is wrong with a step: its action, or the first of its parameters that has a fault. -/
def faultOf (step : BoundStep) : Option LoweringError :=
  match step.call with
  | none => some .noCallAction
  | some action =>
    match parametersOf action with
    | none => some (.unknownAction action)
    | some parameters => parameters.findSome? (faultAt step.withArguments action)

/-- The error of a result. -/
def errorOf {ε α : Type} : Except ε α → Option ε
  | .ok _ => none
  | .error e => some e

theorem errorOf_extract {type : ArgumentType} (h : ∀ v, type.accepts v = (read v).isSome) :
    errorOf (extract read args action name) = faultAt args action (name, type) := by
  simp only [extract, faultAt, h]
  cases args[name]? with
  | none => rfl
  | some v =>
    dsimp only
    cases hread : read v with
    | none => simp [okOr, hread, errorOf, bind, Except.bind]
    | some a => simp [okOr, hread, errorOf, bind, Except.bind]

theorem errorOf_bind {ε α β : Type} (x : Except ε α) (f : α → Except ε β) :
    errorOf (x >>= f) = match x with
      | .ok a => errorOf (f a)
      | .error e => some e := by
  cases x with
  | ok a => rfl
  | error e => rfl

theorem faultAt_text :
    faultAt args action (name, .text) = errorOf (extractString args action name) :=
  (errorOf_extract fun _ => rfl).symm

theorem faultAt_signed :
    faultAt args action (name, .signed) = errorOf (extractI64 args action name) :=
  (errorOf_extract fun _ => rfl).symm

theorem faultAt_unsigned :
    faultAt args action (name, .unsigned) = errorOf (extractU64 args action name) :=
  (errorOf_extract fun _ => rfl).symm

/-- The parameters are read in their order, up to the first one with a fault. -/
theorem errorOf_lower : errorOf step.lower = faultOf step := by
  unfold BoundStep.lower faultOf
  cases step.call with
  | none => rfl
  | some action =>
    rw [errorOf_bind]
    dsimp only [okOr]
    split
    · rfl
    · rfl
    · simp only [parametersOf, List.findSome?_cons, List.findSome?_nil, faultAt_text,
        faultAt_signed, errorOf_bind]
      cases extractString step.withArguments "heater.set_target" "heater" with
      | error e => rfl
      | ok heater =>
        cases extractI64 step.withArguments "heater.set_target" "target_milli_c" with
        | error e => rfl
        | ok target => rfl
    · simp only [parametersOf, List.findSome?_cons, List.findSome?_nil, faultAt_text,
        faultAt_unsigned, errorOf_bind]
      cases extractString step.withArguments "motion.home" "axis" with
      | error e => rfl
      | ok axis =>
        cases extractU64 step.withArguments "motion.home" "rate_um_s" with
        | error e => rfl
        | ok rate => rfl
    · simp only [parametersOf, List.findSome?_cons, List.findSome?_nil, faultAt_text,
        faultAt_signed, faultAt_unsigned, errorOf_bind]
      cases extractString step.withArguments "motion.move" "axis" with
      | error e => rfl
      | ok axis =>
        cases extractI64 step.withArguments "motion.move" "distance_um" with
        | error e => rfl
        | ok distance =>
          cases extractU64 step.withArguments "motion.move" "rate_um_s" with
          | error e => rfl
          | ok rate => rfl
    · have hnone : parametersOf action = none := by
        unfold parametersOf
        split
        all_goals simp_all
      rw [hnone]
      rfl

theorem lower_eq_error_iff {e : LoweringError} : step.lower = .error e ↔ faultOf step = some e := by
  rw [← errorOf_lower]
  cases step.lower with
  | ok command => simp [errorOf]
  | error e' => simp [errorOf]

/-! ## Steps of commands -/

/-- The step that calls for a command and gives nothing else. -/
def stepOf (command : Command) : BoundStep where
  call := (actionsOf command).head?
  withArguments := .ofList (argumentsOf command)

theorem calls_stepOf (command : Command) : Calls (stepOf command) command := by
  refine ⟨?_, ?_⟩
  · cases command with
    | heartbeat => exact ⟨_, List.mem_cons_self, rfl⟩
    | setHeaterTarget heater target => exact ⟨_, List.mem_cons_self, rfl⟩
    | home axis rate => exact ⟨_, List.mem_cons_self, rfl⟩
    | move axis distance rate => exact ⟨_, List.mem_cons_self, rfl⟩
  · have hdistinct : (argumentsOf command).Pairwise fun a b => ¬ compare a.1 b.1 = .eq := by
      cases command with
      | heartbeat => exact .nil
      | setHeaterTarget heater target => simp [argumentsOf]
      | home axis rate => simp [argumentsOf]
      | move axis distance rate => simp [argumentsOf]
    rintro ⟨name, v⟩ hentry
    exact Std.TreeMap.getElem?_ofList_of_mem Std.ReflCmp.compare_self hdistinct hentry

theorem validActionName_of_mem_actionsOf {command : Command} (h : action ∈ actionsOf command) :
    validActionName action := by
  cases command with
  | heartbeat =>
    simp only [actionsOf, List.mem_cons, List.not_mem_nil, or_false] at h
    obtain rfl | rfl := h
    · decide +kernel
    · decide +kernel
  | setHeaterTarget heater target =>
    obtain rfl := List.mem_singleton.mp h
    decide +kernel
  | home axis rate =>
    obtain rfl := List.mem_singleton.mp h
    decide +kernel
  | move axis distance rate =>
    obtain rfl := List.mem_singleton.mp h
    decide +kernel

theorem validIdentifier_of_mem_argumentsOf {command : Command} {entry : String × Argument}
    (h : entry ∈ argumentsOf command) : MachineSchema.validIdentifier entry.1 := by
  have hnames : ["heater", "target_milli_c", "axis", "distance_um", "rate_um_s"].all
      MachineSchema.validIdentifier := by decide +kernel
  apply List.all_eq_true.mp hnames
  cases command with
  | heartbeat => cases h
  | setHeaterTarget heater target =>
    simp only [argumentsOf, List.mem_cons, List.not_mem_nil, or_false] at h
    obtain rfl | rfl := h
    · simp
    · simp
  | home axis rate =>
    simp only [argumentsOf, List.mem_cons, List.not_mem_nil, or_false] at h
    obtain rfl | rfl := h
    · simp
    · simp
  | move axis distance rate =>
    simp only [argumentsOf, List.mem_cons, List.not_mem_nil, or_false] at h
    obtain rfl | rfl | rfl := h
    · simp
    · simp
    · simp

theorem stepErrors_stepOf (reference context : String) (command : Command) :
    stepErrors reference context (stepOf command).toStep = [] := by
  obtain ⟨action, haction, hcall⟩ := (calls_stepOf command).action
  have harguments : ∀ argument ∈ (stepOf command).toStep.withArguments,
      MachineSchema.validIdentifier argument := by
    intro argument hargument
    have hkey := Std.TreeMap.mem_keys.mp hargument
    rw [stepOf, Std.TreeMap.mem_ofList, List.contains_iff_mem] at hkey
    obtain ⟨entry, hentry, rfl⟩ := List.mem_map.mp hkey
    exact validIdentifier_of_mem_argumentsOf hentry
  have hstep : (stepOf command).toStep.call = some action := hcall
  simp only [stepErrors, hstep, validActionName_of_mem_actionsOf haction, if_true,
    List.nil_append, List.flatMap_eq_nil_iff]
  intro argument hargument
  rw [if_pos (harguments argument hargument)]

/-- A step is lowered to a command exactly when it calls for it, and fails exactly with its first
fault. Every command is called for by a step that the checks of its package accept. -/
theorem lowering_is_exact :
    (∀ step command, BoundStep.lower step = .ok command ↔ Calls step command) ∧
    (∀ step e, BoundStep.lower step = .error e ↔ faultOf step = some e) ∧
    ∀ command, ∃ step, BoundStep.lower step = .ok command ∧
      ∀ reference context, stepErrors reference context step.toStep = [] := by
  refine ⟨fun _ _ => lower_eq_ok_iff, fun _ _ => lower_eq_error_iff, ?_⟩
  intro command
  exact ⟨stepOf command, lower_eq_ok_iff.mpr (calls_stepOf command),
    fun reference context => stepErrors_stepOf reference context command⟩

end Dryer.PackageModel
