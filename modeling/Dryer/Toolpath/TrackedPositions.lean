import Dryer.Toolpath.Auditor
import Dryer.Toolpath.GcodeLowerer
import Mathlib.Logic.Function.Basic

/-!
# Tracked positions

A text is a list of words that home an axis, move it to a position, or move it by a distance. The
lowerer follows the axes through these words exactly as far as nothing overflows, and the audit
of its commands finds the axes where the lowerer leaves them.
-/
namespace Dryer.Toolpath
open Library ControlProtocol

/-! ## Words of axes -/

inductive AxisWord where
  | home
  | moveTo (targetUm : Int64)
  | moveBy (distanceUm : Int64)

/-- Where a word leaves an axis, without bounds. -/
def AxisWord.exactUm (positionUm : ℤ) : AxisWord → ℤ
  | home => 0
  | moveTo targetUm => targetUm.toInt
  | moveBy distanceUm => positionUm + distanceUm.toInt

/-- What is computed for a word fits 64 bits: the distance to a target, or the sum. -/
def AxisWord.Fits (positionUm : ℤ) : AxisWord → Prop
  | home => True
  | moveTo targetUm => I64.InRange (targetUm.toInt - positionUm)
  | moveBy distanceUm => I64.InRange (positionUm + distanceUm.toInt)

/-- Every word fits, from where the words before it leave its axis. -/
def WordsFit (positionsUm : String → ℤ) : List (String × AxisWord) → Prop
  | [] => True
  | (axis, word) :: rest => word.Fits (positionsUm axis) ∧
    WordsFit (Function.update positionsUm axis (word.exactUm (positionsUm axis))) rest

/-- Where words leave the axes, without bounds. -/
def exactAfter (positionsUm : String → ℤ) (words : List (String × AxisWord)) : String → ℤ :=
  words.foldl (fun positionsUm (axis, word) =>
    Function.update positionsUm axis (word.exactUm (positionsUm axis))) positionsUm

theorem wordsFit_append {positionsUm : String → ℤ} {first later : List (String × AxisWord)} :
    WordsFit positionsUm (first ++ later) ↔
      WordsFit positionsUm first ∧ WordsFit (exactAfter positionsUm first) later := by
  induction first generalizing positionsUm with
  | nil => exact (and_iff_right trivial).symm
  | cons word first ih =>
    rw [List.cons_append, WordsFit, WordsFit, ih, and_assoc]
    rfl

section Words

variable {φ : Type} [Decimals φ]

/-- The words of a line in a mode. -/
def lineWords (absolute : Bool) : List (Char × φ) → List (String × AxisWord)
  | [] => []
  | (letter, number) :: params =>
    match codeTable.lookup (letter, Decimals.whole number) with
    | some .home =>
      let named := params.filterMap fun (axis, _) => axisOf homeAxes axis
      (if named.isEmpty then homeAxes else named).map (·, .home)
    | some .linear =>
      (LowerState.moveTargets params).map fun (axis, targetUm) =>
        (axis, if absolute then .moveTo targetUm else .moveBy targetUm)
    | _ => []

/-- The mode after a line. -/
def nextMode (absolute : Bool) : List (Char × φ) → Bool
  | [] => absolute
  | (letter, number) :: _ =>
    match codeTable.lookup (letter, Decimals.whole number) with
    | some .absolute => true
    | some .relative => false
    | _ => absolute

variable (φ)

/-- The words of the lines of a program. -/
def axisWords (absolute : Bool) : List String → List (String × AxisWord)
  | [] => []
  | rawLine :: rest =>
    let tokens := parseTokens φ (cleanLine rawLine)
    lineWords absolute tokens ++ axisWords (nextMode absolute tokens) rest

end Words

namespace LowerState

def applyWord (s : LowerState) : String × AxisWord → Option LowerState
  | (axis, .home) => some (s.homeAxis axis)
  | (axis, .moveTo targetUm) =>
    (I64.checkedSub targetUm (s.positionUm axis)).map fun deltaUm =>
      (s.emit (.move axis deltaUm s.lowerer.currentFeedRateUmS)).track axis targetUm
  | (axis, .moveBy distanceUm) =>
    (I64.checkedAdd (s.positionUm axis) distanceUm).map fun sumUm =>
      (s.emit (.move axis distanceUm s.lowerer.currentFeedRateUmS)).track axis sumUm

@[simp] theorem positionUm_track (s : LowerState) (axis name : String) (positionUm : Int64) :
    (s.track axis positionUm).positionUm name =
      if axis = name then positionUm else s.positionUm name := by
  simp only [LowerState.positionUm, track, Std.TreeMap.getElem?_insert,
    Std.LawfulEqOrd.compare_eq_iff_eq]
  split <;> rfl

@[simp] theorem positionUm_emit (s : LowerState) (command : Command) (name : String) :
    (s.emit command).positionUm name = s.positionUm name := rfl

@[simp] theorem commands_track (s : LowerState) (axis : String) (positionUm : Int64) :
    (s.track axis positionUm).commands = s.commands := rfl

@[simp] theorem commands_emit (s : LowerState) (command : Command) :
    (s.emit command).commands = s.commands ++ [command] := rfl

/-! ## A line by its words -/

section Lines

variable {φ : Type} [Decimals φ] {s next : LowerState}

/-- What a line does before its words: the mode, the feed rate, and the heaters. -/
def prepare (s : LowerState) : List (Char × φ) → LowerState
  | [] => s
  | (letter, number) :: params =>
    match codeTable.lookup (letter, Decimals.whole number) with
    | none | some .home => s
    | some .absolute => s.setMode true
    | some .relative => s.setMode false
    | some .linear => s.setFeedRate params
    | some .hotendTarget =>
      s.heaterTarget s.lowerer.config.hotendName ((letter, number) :: params)
    | some .bedTarget => s.heaterTarget s.lowerer.config.bedName ((letter, number) :: params)
    | some .heartbeat => s.emit .heartbeat

theorem foldlM_home (s : LowerState) (axes : List String) :
    (axes.map (·, AxisWord.home)).foldlM applyWord s = some (axes.foldl homeAxis s) := by
  induction axes generalizing s with
  | nil => rfl
  | cons axis axes ih => exact ih (s.homeAxis axis)

theorem mode_applyWord {word : String × AxisWord} (h : s.applyWord word = some next) :
    next.lowerer.absolutePositioning = s.lowerer.absolutePositioning := by
  obtain ⟨axis, word⟩ := word
  cases word with
  | home =>
    obtain rfl := Option.some.inj h
    rfl
  | moveTo | moveBy =>
    obtain ⟨_, -, rfl⟩ := Option.map_eq_some_iff.mp h
    rfl

theorem moveAxis_eq (s : LowerState) (axis : String) (targetUm : Int64) :
    s.moveAxis axis targetUm = s.applyWord
      (axis, if s.lowerer.absolutePositioning then .moveTo targetUm else .moveBy targetUm) := by
  unfold moveAxis
  split <;> rfl

theorem foldlM_moveAxis (s : LowerState) (targets : List (String × Int64)) :
    targets.foldlM (fun s (axis, targetUm) => s.moveAxis axis targetUm) s =
      (targets.map fun (axis, targetUm) => (axis, if s.lowerer.absolutePositioning then
        AxisWord.moveTo targetUm else .moveBy targetUm)).foldlM applyWord s := by
  induction targets generalizing s with
  | nil => rfl
  | cons target targets ih =>
    obtain ⟨axis, targetUm⟩ := target
    rw [List.map_cons, List.foldlM_cons, List.foldlM_cons]
    dsimp only
    rw [moveAxis_eq]
    apply Option.bind_congr
    intro next hnext
    rw [ih next, mode_applyWord hnext]

theorem lowerTokens_eq (s : LowerState) (tokens : List (Char × φ)) :
    s.lowerTokens tokens =
      (lineWords s.lowerer.absolutePositioning tokens).foldlM applyWord (s.prepare tokens) := by
  cases tokens with
  | nil => rfl
  | cons token params =>
    obtain ⟨letter, number⟩ := token
    unfold lowerTokens lineWords prepare
    dsimp only
    cases codeTable.lookup (letter, Decimals.whole number) with
    | none => rfl
    | some code =>
      cases code with
      | home => exact (foldlM_home s _).symm
      | linear => exact foldlM_moveAxis (s.setFeedRate params) _
      | absolute | relative | hotendTarget | bedTarget | heartbeat => rfl

theorem mode_prepare (s : LowerState) (tokens : List (Char × φ)) :
    (s.prepare tokens).lowerer.absolutePositioning =
      nextMode s.lowerer.absolutePositioning tokens := by
  unfold prepare nextMode
  cases tokens with
  | nil => rfl
  | cons token params =>
    dsimp only
    cases codeTable.lookup (token.1, Decimals.whole token.2) with
    | none => rfl
    | some code =>
      cases code with
      | hotendTarget | bedTarget =>
        unfold heaterTarget
        dsimp only
        split <;> rfl
      | home | linear | absolute | relative | heartbeat => rfl

/-! ## What the words keep -/

/-- The axes are where the exact positions say, and where the commands leave them. -/
structure Tracks (s : LowerState) (positionsUm : String → ℤ) : Prop where
  exact : ∀ axis, (s.positionUm axis).toInt = positionsUm axis
  audited : ∀ axis, s.positionUm axis = travel axis s.commands

variable {positionsUm : String → ℤ}

theorem tracks_start (config : LowererConfig) : (start (.new config)).Tracks fun _ => 0 where
  exact _ := by simp [start, GcodeLowerer.new, LowerState.positionUm]
  audited _ := by simp [start, GcodeLowerer.new, LowerState.positionUm, travel]

theorem travel_append (axis : String) (commands : List Command) (command : Command) :
    travel axis (commands ++ [command]) = travelBy axis (travel axis commands) command := by
  rw [travel, List.foldl_append]
  rfl

/-- A line leaves the axes alone before its words. -/
theorem Tracks.prepare (h : s.Tracks positionsUm) (tokens : List (Char × φ)) :
    (s.prepare tokens).Tracks positionsUm := by
  have hemit {command : Command} (hrest : ∀ axis positionUm,
      travelBy axis positionUm command = positionUm) : (s.emit command).Tracks positionsUm := by
    refine ⟨h.exact, ?_⟩
    intro axis
    rw [commands_emit, travel_append, hrest]
    exact h.audited axis
  have hheater (heater : String) (tokens : List (Char × φ)) :
      (s.heaterTarget heater tokens).Tracks positionsUm := by
    unfold heaterTarget
    split
    · exact h
    · exact hemit fun _ _ => rfl
  unfold LowerState.prepare
  split
  · exact h
  · split
    · exact h
    · exact h
    · exact ⟨h.exact, h.audited⟩
    · exact ⟨h.exact, h.audited⟩
    · exact ⟨h.exact, h.audited⟩
    · exact hheater _ _
    · exact hheater _ _
    · exact hemit fun _ _ => rfl

/-- A word succeeds exactly when it fits. -/
theorem Tracks.isSome_applyWord (h : s.Tracks positionsUm) (axis : String) (word : AxisWord) :
    (s.applyWord (axis, word)).isSome ↔ word.Fits (positionsUm axis) := by
  rw [← h.exact axis]
  cases word with
  | home => simp [LowerState.applyWord, AxisWord.Fits]
  | moveTo | moveBy =>
    simp [LowerState.applyWord, AxisWord.Fits, I64.checkedSub, I64.checkedAdd]

/-- A command that moves one axis to a position, where it is then tracked. -/
theorem Tracks.emit_track (h : s.Tracks positionsUm) {axis : String} {positionUm : Int64}
    {command : Command} (hself : travelBy axis (s.positionUm axis) command = positionUm)
    (hother : ∀ name, axis ≠ name → travelBy name (s.positionUm name) command = s.positionUm name) :
    ((s.emit command).track axis positionUm).Tracks
      (Function.update positionsUm axis positionUm.toInt) := by
  constructor
  · intro name
    rw [positionUm_track, positionUm_emit, Function.update_apply]
    grind [h.exact name]
  · intro name
    rw [positionUm_track, positionUm_emit, commands_track, commands_emit, travel_append,
      ← h.audited name]
    grind

theorem Tracks.applyWord (h : s.Tracks positionsUm) {axis : String} {word : AxisWord}
    (hnext : s.applyWord (axis, word) = some next) :
    next.Tracks (Function.update positionsUm axis (word.exactUm (positionsUm axis))) := by
  cases word with
  | home =>
    obtain rfl := Option.some.inj hnext
    apply h.emit_track
    · simp [travelBy]
    · intro name hne
      simp [travelBy, hne]
  | moveTo targetUm =>
    obtain ⟨deltaUm, hdelta, rfl⟩ := Option.map_eq_some_iff.mp hnext
    rw [I64.checkedSub, I64.ofInt?_eq_some] at hdelta
    apply h.emit_track
    · rw [travelBy, if_pos rfl]
      exact I64.saturatingAdd_eq (by omega)
    · intro name hne
      simp [travelBy, hne]
  | moveBy distanceUm =>
    obtain ⟨sumUm, hsum, rfl⟩ := Option.map_eq_some_iff.mp hnext
    rw [I64.checkedAdd, I64.ofInt?_eq_some] at hsum
    have hexact : AxisWord.exactUm (positionsUm axis) (.moveBy distanceUm) = sumUm.toInt := by
      rw [AxisWord.exactUm, hsum, h.exact]
    rw [hexact]
    apply h.emit_track
    · rw [travelBy, if_pos rfl]
      exact I64.saturatingAdd_eq hsum
    · intro name hne
      simp [travelBy, hne]

/-! ## Programs -/

theorem Tracks.foldlM (h : s.Tracks positionsUm) (words : List (String × AxisWord)) :
    ((words.foldlM LowerState.applyWord s).isSome ↔ WordsFit positionsUm words) ∧
      ∀ last, words.foldlM LowerState.applyWord s = some last →
        last.Tracks (exactAfter positionsUm words) ∧
          last.lowerer.absolutePositioning = s.lowerer.absolutePositioning := by
  induction words generalizing s positionsUm with
  | nil =>
    refine ⟨by simp [WordsFit], ?_⟩
    rintro last hlast
    obtain rfl := Option.some.inj hlast
    exact ⟨h, rfl⟩
  | cons word words ih =>
    obtain ⟨axis, word⟩ := word
    have hfits := h.isSome_applyWord axis word
    rw [List.foldlM_cons]
    cases hnext : s.applyWord (axis, word) with
    | none =>
      rw [hnext] at hfits
      refine ⟨?_, ?_⟩
      · simp [WordsFit, ← hfits]
      · intro last hlast
        cases hlast
    | some next =>
      rw [hnext] at hfits
      obtain ⟨hsome, hlast⟩ := ih (h.applyWord hnext)
      refine ⟨?_, ?_⟩
      · rw [WordsFit, ← hfits]
        exact hsome.trans (and_iff_right rfl).symm
      · intro last hrest
        obtain ⟨htracks, hmode⟩ := hlast last hrest
        exact ⟨htracks, hmode.trans (mode_applyWord hnext)⟩

variable (φ) in
theorem Tracks.lowerLines (h : s.Tracks positionsUm) (rawLines : List String) :
    ((s.lowerLines φ rawLines).isSome ↔
      WordsFit positionsUm (axisWords φ s.lowerer.absolutePositioning rawLines)) ∧
      ∀ last, s.lowerLines φ rawLines = some last → ∃ lastUm, last.Tracks lastUm := by
  induction rawLines generalizing s positionsUm with
  | nil =>
    refine ⟨by simp [LowerState.lowerLines, axisWords, WordsFit], ?_⟩
    rintro last hlast
    obtain rfl := Option.some.inj hlast
    exact ⟨positionsUm, h⟩
  | cons rawLine rawLines ih =>
    rw [axisWords, LowerState.lowerLines, List.foldlM_cons, LowerState.lowerLine, lowerTokens_eq]
    generalize parseTokens φ (cleanLine rawLine) = tokens
    obtain ⟨hsome, hlast⟩ :=
      (h.prepare tokens).foldlM (lineWords s.lowerer.absolutePositioning tokens)
    rw [wordsFit_append, ← hsome]
    cases hnext : (lineWords s.lowerer.absolutePositioning tokens).foldlM LowerState.applyWord
        (s.prepare tokens) with
    | none =>
      refine ⟨by simp, ?_⟩
      intro last hrest
      cases hrest
    | some next =>
      obtain ⟨htracks, hmode⟩ := hlast next hnext
      obtain ⟨hrest, htracked⟩ := ih htracks
      rw [hmode, mode_prepare] at hrest
      exact ⟨hrest.trans (and_iff_right rfl).symm, htracked⟩

end Lines

end LowerState

section Source

variable {φ : Type} [Decimals φ]

/-- The audit of the commands of a text finds every axis where the lowerer tracks it. -/
theorem positionUm_lowerSource (auditor : ToolpathAuditor) {config : LowererConfig}
    {gcodeText : String} {last : LowerState}
    (h : GcodeLowerer.lowerSource φ (.new config) gcodeText = some last) (axis : String) :
    last.positionUm axis = (auditor.positions last.commands)[axis]?.getD 0 := by
  rw [ToolpathAuditor.positions_eq_travel]
  obtain ⟨_, htracks⟩ := ((LowerState.tracks_start config).lowerLines φ (lines gcodeText)).2 last h
  exact htracks.audited axis

variable (φ)

/-- A text is lowered without overflow exactly when all its words fit, followed from 0. -/
theorem isSome_lowerSource_iff (config : LowererConfig) (gcodeText : String) :
    (GcodeLowerer.lowerSource φ (.new config) gcodeText).isSome ↔
      WordsFit (fun _ => 0) (axisWords φ true (lines gcodeText)) :=
  ((LowerState.tracks_start config).lowerLines φ (lines gcodeText)).1

end Source

/-- A text with both modes, two words of one axis, and an axis that is homed alone. -/
def mixedText : String :=
  "G28 ; all axes\nG1 F3000 X10.5 Y20.0\nG91\nG1 X-2 X0.25 E1\nG28 Y0\nG90\nG0 X15.5 Z3"

theorem positionUm_mixedText : ∃ last,
    GcodeLowerer.lowerSource ℚ (.new .default) mixedText = some last ∧
      last.positionUm "x" =
        ((ToolpathAuditor.new ⟨∅, 0, ∅⟩).positions last.commands)["x"]?.getD 0 := by
  have hlowers : (GcodeLowerer.lowerSource ℚ (.new .default) mixedText).isSome := by
    decide +kernel
  obtain ⟨last, hlast⟩ := Option.isSome_iff_exists.mp hlowers
  exact ⟨last, hlast, positionUm_lowerSource _ hlast "x"⟩

/-- From one end of the range to the other, the distance is too large. -/
theorem lowerSource_overflows : ¬ (GcodeLowerer.lowerSource ℚ (.new .default)
    "G1 X10000000000000000\nG1 X-10000000000000000").isSome := by
  decide +kernel

end Dryer.Toolpath
