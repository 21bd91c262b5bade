import Dryer.PackageModel.Payloads

/-!
# Safety profiles

The state that each class of components is put in, and what its safety needs.
-/
namespace Dryer.PackageModel
open Library MachineSchema

inductive SafeState where
  | off
  | disabled
  deriving DecidableEq

structure ClassPolicy where
  safeState : SafeState
  heartbeatTimeout : Option String
  requiresSensor : Bool

structure SafetyProfileFile where
  classes : Std.TreeMap String ClassPolicy

variable (κ : Type) [Numbers κ]

/-- A time in whole microseconds, of which there must be one. -/
def quantizeTimeoutMicros (quantity : Quantity κ) : Option ℕ :=
  if Numbers.zero < quantity.value then
    (Numbers.wholeUnits (Numbers.scale quantity.value 1000000)).filter (1 ≤ ·)
  else none

def ClassPolicy.heartbeatTimeoutUs (policy : ClassPolicy) : Option ℕ :=
  policy.heartbeatTimeout.bind fun raw =>
    match Quantity.parseAs raw .time with
    | .error _ => none
    | .ok quantity => quantizeTimeoutMicros κ quantity

/-- A timeout that is compiled is a positive one. -/
theorem ClassPolicy.heartbeatTimeoutUs_ne_zero (policy : ClassPolicy) :
    policy.heartbeatTimeoutUs κ ≠ some 0 := by
  intro h
  obtain ⟨raw, -, hraw⟩ := Option.bind_eq_some_iff.mp h
  split at hraw
  · cases hraw
  · unfold quantizeTimeoutMicros at hraw
    split at hraw
    · simp [Option.filter_eq_some_iff] at hraw
    · cases hraw

def classErrors (reference : String) : String × ClassPolicy → List PayloadError
  | (className, policy) =>
    match policy.heartbeatTimeout with
    | none => []
    | some heartbeat =>
      match (Quantity.parseAs heartbeat .time : Except QuantityError (Quantity κ)) with
      | .error e =>
        [⟨"E0633", s!"{reference}: class '{className}' heartbeat_timeout: {e.toText}"⟩]
      | .ok quantity =>
        if quantity.value ≤ Numbers.zero then
          [⟨"E0634", s!"{reference}: class '{className}' heartbeat_timeout must be positive"⟩]
        else if (quantizeTimeoutMicros κ quantity).isNone then
          [⟨"E0635", s!"{reference}: class '{className}' heartbeat_timeout must fit the 1 us " ++
            "controller time quantum"⟩]
        else []

def safetyFormat (fromYaml : String → Except String SafetyProfileFile) :
    PayloadFormat SafetyProfileFile where
  kind := .safetyProfile
  noun := "safety-profile"
  payload := "safety"
  wrongKind := "E0630"
  unreadable := "E0631"
  unparsable := "E0632"
  fromYaml
  check reference profile := profile.classes.toList.flatMap (classErrors κ reference)

end Dryer.PackageModel
