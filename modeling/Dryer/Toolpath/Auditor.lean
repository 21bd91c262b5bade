import Dryer.ControlProtocol.Frames
import Dryer.Library.BoundedInt
import Dryer.Library.Lists
import Mathlib.Data.List.Induction
import Std.Data.TreeMap

/-!
# The toolpath auditor

A job is read once before it is sent. The audit follows the axes from position 0 and checks
moves, rates and heater targets against the limits of the machine.
-/
namespace Dryer.Toolpath
open Library ControlProtocol

structure AxisLimit where
  minUm : Int64
  maxUm : Int64
  deriving DecidableEq

structure AuditLimits where
  axes : Std.TreeMap String AxisLimit
  maxFeedRateUmS : UInt64
  heaterCeilingsMilliC : Std.TreeMap String Int64

structure AuditDiagnostic where
  code : String
  commandIndex : ℕ
  message : String
  deriving DecidableEq

structure AuditReport where
  passed : Bool
  commandsAudited : ℕ
  diagnostics : List AuditDiagnostic
  deriving DecidableEq

/-- The variables of the loop of `audit`. -/
structure AuditState where
  diagnostics : List AuditDiagnostic
  positions : Std.TreeMap String Int64

structure ToolpathAuditor where
  limits : AuditLimits

namespace ToolpathAuditor

def new (limits : AuditLimits) : ToolpathAuditor where
  limits

/-- A maximum of 0 allows every rate. -/
def auditRate (auditor : ToolpathAuditor) (index : ℕ) (what : String) (rateUmS : UInt64) :
    List AuditDiagnostic :=
  if auditor.limits.maxFeedRateUmS > 0 ∧ rateUmS > auditor.limits.maxFeedRateUmS then
    [{ code := "A002"
       commandIndex := index
       message := s!"{what} rate {rateUmS} um/s exceeds maximum feed rate " ++
        s!"{auditor.limits.maxFeedRateUmS} um/s" }]
  else []

def auditTarget (auditor : ToolpathAuditor) (index : ℕ) (heater : String)
    (targetMilliC : Int64) : List AuditDiagnostic :=
  match auditor.limits.heaterCeilingsMilliC[heater]? with
  | none =>
    [{ code := "A004", commandIndex := index, message := s!"unknown heater '{heater}' in command" }]
  | some ceiling =>
    if targetMilliC > ceiling then
      [{ code := "A003"
         commandIndex := index
         message := s!"heater '{heater}' target {targetMilliC} mC exceeds ceiling of " ++
          s!"{ceiling} mC" }]
    else []

def auditBounds (auditor : ToolpathAuditor) (index : ℕ) (axis : String) (newPos : Int64) :
    List AuditDiagnostic :=
  match auditor.limits.axes[axis]? with
  | none => []
  | some limit =>
    if newPos < limit.minUm ∨ newPos > limit.maxUm then
      [{ code := "A001"
         commandIndex := index
         message := s!"axis '{axis}' position {newPos} um is outside bounds " ++
          s!"[{limit.minUm}, {limit.maxUm}] um" }]
    else []

/-- The body of the loop of `audit`. -/
def auditCommand (auditor : ToolpathAuditor) (s : AuditState) (index : ℕ) :
    Command → AuditState
  | .heartbeat => s
  | .setHeaterTarget heater targetMilliC =>
    { s with diagnostics := s.diagnostics ++ auditor.auditTarget index heater targetMilliC }
  | .home axis rateUmS =>
    { diagnostics := s.diagnostics ++ auditor.auditRate index "homing" rateUmS
      positions := s.positions.insert axis 0 }
  | .move axis distanceUm rateUmS =>
    let newPos := I64.saturatingAdd (s.positions[axis]?.getD 0) distanceUm
    { diagnostics := s.diagnostics ++ auditor.auditRate index "move" rateUmS ++
        auditor.auditBounds index axis newPos
      positions := s.positions.insert axis newPos }

/-- The loop of `audit`. -/
def auditFrom (auditor : ToolpathAuditor) (s : AuditState) (index : ℕ) :
    List Command → AuditState
  | [] => s
  | command :: commands =>
    auditor.auditFrom (auditor.auditCommand s index command) (index + 1) commands

def audit (auditor : ToolpathAuditor) (commands : List Command) : AuditReport :=
  let s := auditor.auditFrom { diagnostics := [], positions := ∅ } 0 commands
  { passed := s.diagnostics.isEmpty
    commandsAudited := commands.length
    diagnostics := s.diagnostics }

/-- The positions that `audit` computes. -/
def positions (auditor : ToolpathAuditor) (commands : List Command) : Std.TreeMap String Int64 :=
  (auditor.auditFrom { diagnostics := [], positions := ∅ } 0 commands).positions

end ToolpathAuditor

/-! ## Positions and bounds -/

/-- Where a command leaves an axis. -/
def travelBy (name : String) (positionUm : Int64) : Command → Int64
  | .home axis _ => if axis = name then 0 else positionUm
  | .move axis distanceUm _ =>
    if axis = name then I64.saturatingAdd positionUm distanceUm else positionUm
  | _ => positionUm

/-- Where the commands leave an axis that starts at 0, read one after the other. -/
def travel (name : String) (commands : List Command) : Int64 :=
  commands.foldl (travelBy name) 0

def AxisLimit.Contains (limit : AxisLimit) (positionUm : Int64) : Prop :=
  limit.minUm ≤ positionUm ∧ positionUm ≤ limit.maxUm

instance (limit : AxisLimit) (positionUm : Int64) : Decidable (limit.Contains positionUm) :=
  inferInstanceAs (Decidable (_ ∧ _))

namespace ToolpathAuditor

def RateAllowed (auditor : ToolpathAuditor) (rateUmS : UInt64) : Prop :=
  auditor.limits.maxFeedRateUmS > 0 → rateUmS ≤ auditor.limits.maxFeedRateUmS

/-- What the audit asks of a command, by the positions that the commands before it left. -/
def Passes (auditor : ToolpathAuditor) (positionUm : String → Int64) : Command → Prop
  | .heartbeat => True
  | .setHeaterTarget heater targetMilliC =>
    ∃ ceiling, auditor.limits.heaterCeilingsMilliC[heater]? = some ceiling ∧
      targetMilliC ≤ ceiling
  | .home _ rateUmS => auditor.RateAllowed rateUmS
  | .move axis distanceUm rateUmS =>
    auditor.RateAllowed rateUmS ∧ ∀ limit, auditor.limits.axes[axis]? = some limit →
      limit.Contains (I64.saturatingAdd (positionUm axis) distanceUm)

variable {auditor : ToolpathAuditor}

theorem auditRate_eq_nil_iff {index : ℕ} {what : String} {rateUmS : UInt64} :
    auditor.auditRate index what rateUmS = [] ↔ auditor.RateAllowed rateUmS := by
  rw [auditRate, RateAllowed]
  split <;> simp_all

theorem auditTarget_eq_nil_iff {index : ℕ} {heater : String} {targetMilliC : Int64} :
    auditor.auditTarget index heater targetMilliC = [] ↔
      ∃ ceiling, auditor.limits.heaterCeilingsMilliC[heater]? = some ceiling ∧
        targetMilliC ≤ ceiling := by
  rw [auditTarget]
  cases auditor.limits.heaterCeilingsMilliC[heater]? with
  | none => simp
  | some ceiling => simp [Int64.not_lt]

theorem auditBounds_eq_nil_iff {index : ℕ} {axis : String} {newPos : Int64} :
    auditor.auditBounds index axis newPos = [] ↔
      ∀ limit, auditor.limits.axes[axis]? = some limit → limit.Contains newPos := by
  rw [auditBounds]
  cases auditor.limits.axes[axis]? with
  | none => simp
  | some limit => simp [AxisLimit.Contains, Int64.not_lt]

/-- A command adds no diagnostic exactly when it passes. -/
theorem auditCommand_diagnostics (s : AuditState) (index : ℕ) (command : Command) :
    (auditor.auditCommand s index command).diagnostics = [] ↔
      s.diagnostics = [] ∧ auditor.Passes (s.positions[·]?.getD 0) command := by
  cases command with
  | heartbeat => exact (and_iff_left trivial).symm
  | setHeaterTarget => simp [auditCommand, Passes, auditTarget_eq_nil_iff]
  | home => simp [auditCommand, Passes, auditRate_eq_nil_iff]
  | move => simp [auditCommand, Passes, auditRate_eq_nil_iff, auditBounds_eq_nil_iff]

theorem positions_auditCommand (s : AuditState) (index : ℕ) (command : Command) (name : String) :
    (auditor.auditCommand s index command).positions[name]?.getD 0 =
      travelBy name (s.positions[name]?.getD 0) command := by
  cases command with
  | heartbeat | setHeaterTarget => rfl
  | home axis rateUmS | move axis _ rateUmS =>
    by_cases heq : axis = name
    · simp [auditCommand, travelBy, heq]
    · simp [auditCommand, travelBy, heq, Std.TreeMap.getElem?_insert]

theorem positions_auditFrom (s : AuditState) (index : ℕ) (commands : List Command)
    (name : String) :
    (auditor.auditFrom s index commands).positions[name]?.getD 0 =
      commands.foldl (travelBy name) (s.positions[name]?.getD 0) := by
  induction commands generalizing s index with
  | nil => rfl
  | cons command commands ih => rw [auditFrom, ih, positions_auditCommand, List.foldl_cons]

theorem positions_eq_travel (auditor : ToolpathAuditor) (commands : List Command)
    (name : String) :
    (auditor.positions commands)[name]?.getD 0 = travel name commands := by
  rw [positions, positions_auditFrom]
  simp [travel]

theorem auditFrom_append (s : AuditState) (index : ℕ) (commands : List Command)
    (command : Command) :
    auditor.auditFrom s index (commands ++ [command]) =
      auditor.auditCommand (auditor.auditFrom s index commands) (index + commands.length)
        command := by
  induction commands generalizing s index with
  | nil => rfl
  | cons first commands ih => rw [List.cons_append, auditFrom, ih, auditFrom, List.length_cons,
      Nat.add_right_comm, Nat.add_assoc]

/-- A job passes exactly when it does without its last command, and that passes from where the
job before it left the axes. -/
theorem passed_append_singleton {commands : List Command} {command : Command} :
    (auditor.audit (commands ++ [command])).passed ↔
      (auditor.audit commands).passed ∧ auditor.Passes (travel · commands) command := by
  simp only [audit, List.isEmpty_iff, auditFrom_append, auditCommand_diagnostics,
    positions_auditFrom]
  simp [travel]

/-- A job passes after another one exactly when each of its commands passes from where the
commands before it left the axes. -/
theorem passed_append_iff {job commands : List Command} :
    (auditor.audit (job ++ commands)).passed ↔
      (auditor.audit job).passed ∧ ∀ before command after, commands = before ++ command :: after →
        auditor.Passes (travel · (job ++ before)) command := by
  induction commands using List.reverseRecOn with
  | nil => simp
  | append_singleton commands command ih =>
    rw [← List.append_assoc, passed_append_singleton, ih, and_assoc]
    refine and_congr_right fun _ => ⟨?_, fun hall => ⟨fun before found after heq => ?_, ?_⟩⟩
    · rintro ⟨hbefore, hlast⟩ before found after heq
      obtain ⟨rfl, rfl, -⟩ | ⟨later, rfl, -⟩ := append_singleton_cases heq
      · exact hlast
      · exact hbefore before found later rfl
    · exact hall before found (after ++ [command]) (by simp [heq])
    · exact hall commands command [] rfl

/-- A job that passes ends in a command that adds no diagnostic, after a job that passes. -/
theorem passed_append {commands : List Command} {command : Command}
    (h : (auditor.audit (commands ++ [command])).passed) :
    (auditor.audit commands).passed ∧
      ∀ axis distanceUm rateUmS, command = .move axis distanceUm rateUmS →
        ∀ limit, auditor.limits.axes[axis]? = some limit →
          limit.Contains (travel axis (commands ++ [command])) := by
  obtain ⟨hbefore, hlast⟩ := passed_append_singleton.mp h
  refine ⟨hbefore, ?_⟩
  rintro axis distanceUm rateUmS rfl limit hlimit
  rw [travel, List.foldl_append]
  simpa [travelBy, travel] using hlast.2 limit hlimit

end ToolpathAuditor
end Dryer.Toolpath
