import Dryer.Toolpath.TrackedPositions

/-!
# Selective homing

A homing line may name the axes to be homed, among comments. The lowerer cuts a line at a comment
instead of leaving the comment out, and drops words of a letter alone, before the axes are
selected. So an axis that is named may not be homed, and one that is not named may be.
-/
namespace Dryer.Toolpath
open Library ControlProtocol

/-! ## What a line names -/

/-- The text of a line outside its comments. A comment in brackets separates words, one after a
semicolon ends the line. -/
def withoutComments (inside : Bool) : List Char → List Char
  | [] => []
  | c :: rest =>
    if inside then withoutComments (c ≠ ')') rest
    else if c = ';' then []
    else if c = '(' then ' ' :: withoutComments true rest
    else c :: withoutComments false rest

/-- The words of a line outside its comments. -/
def uncommentedWords (rawLine : String) : List String :=
  words (String.ofList (withoutComments false rawLine.toList))

/-- The words of a line up to its first semicolon or, where it has none, to its first bracket. -/
def readWords (rawLine : String) : List String :=
  words (firstSegment rawLine (if ';' ∈ rawLine.toList then ';' else '('))

section Naming

variable (φ : Type) [Decimals φ]

/-- The axis of a word with a number after its letter. -/
def numberedAxis (word : String) : Option String :=
  match word.toList with
  | [] => none
  | letter :: rest =>
    if (Decimals.parse (φ := φ) (String.ofList rest)).isSome then axisOf homeAxes letter.toUpper
    else none

/-- The axis that a word names, with a number after its letter or without. -/
def axisOfWord (word : String) : Option String :=
  match word.toList with
  | [letter] => axisOf homeAxes letter.toUpper
  | _ => numberedAxis φ word

/-- The line names an axis. -/
def Names (rawLine axis : String) : Prop :=
  ∃ word ∈ uncommentedWords rawLine, axisOfWord φ word = some axis

instance (rawLine axis : String) : Decidable (Names φ rawLine axis) :=
  inferInstanceAs (Decidable (∃ word ∈ uncommentedWords rawLine, axisOfWord φ word = some axis))

/-- Words whose first number follows the letter of the code for homing. -/
def Homing (tokens : List (Char × φ)) : Prop :=
  ∃ letter number params, tokens = (letter, number) :: params ∧
    codeTable.lookup (letter, Decimals.whole number) = some .home

/-- A line whose words outside the comments are those of homing. -/
def HomingLine (rawLine : String) : Prop :=
  Homing φ ((uncommentedWords rawLine).filterMap (parseToken φ))

/-- The axes with numbers in the text that is read. -/
def readAxes (rawLine : String) : List String := (readWords rawLine).filterMap (numberedAxis φ)

/-- The first number in the text that is read is that of homing, and the axes with numbers there
are those that the line names; or no axis has a number there, and the line names all of them. -/
structure WordsReach (rawLine : String) : Prop where
  homing : Homing φ ((readWords rawLine).filterMap (parseToken φ))
  named : ∀ axis ∈ readAxes φ rawLine, Names φ rawLine axis
  read : (∀ axis, Names φ rawLine axis → axis ∈ readAxes φ rawLine) ∨
    readAxes φ rawLine = [] ∧ ∀ axis ∈ homeAxes, Names φ rawLine axis

/-- A step homes the named axes, resets their positions, and does nothing else. -/
structure HomesExactly (s next : LowerState) (named : String → Prop) : Prop where
  emitted : ∃ axes : List String, (∀ axis, axis ∈ axes ↔ named axis) ∧
    next.commands = s.commands ++ axes.map (.home · s.lowerer.currentFeedRateUmS)
  reset : ∀ axis, named axis → next.lowerer.positions[axis]? = some 0
  others : ∀ axis, ¬ named axis → next.lowerer.positions[axis]? = s.lowerer.positions[axis]?

variable {φ} {s next : LowerState}

theorem mem_axes_of_axisOf {axes : List String} {letter : Char} {axis : String}
    (h : axisOf axes letter = some axis) : axis ∈ axes := by
  unfold axisOf at h
  dsimp only at h
  split at h
  · rename_i hmem
    obtain rfl := Option.some.inj h
    exact hmem
  · cases h

theorem mem_homeAxes_of_names {rawLine axis : String} (h : Names φ rawLine axis) :
    axis ∈ homeAxes := by
  obtain ⟨word, -, haxis⟩ := h
  unfold axisOfWord at haxis
  split at haxis
  · exact mem_axes_of_axisOf haxis
  · unfold numberedAxis at haxis
    split at haxis
    · cases haxis
    · split at haxis
      · exact mem_axes_of_axisOf haxis
      · cases haxis

/-! ## What is read -/

/-- The lowerer trims a line, and again what it keeps of it, which changes no word. -/
theorem words_cleanLine (rawLine : String) : words (cleanLine rawLine) = readWords rawLine := by
  have hmem {c : Char} (hc : isWhitespace c = false) :
      (trim rawLine).toList.contains c = true ↔ c ∈ rawLine.toList := by
    obtain ⟨before, after, hline, hbefore, hafter⟩ := exists_trim rawLine
    have hnot {space : List Char} (h : ∀ c ∈ space, isWhitespace c) : c ∉ space := by
      intro hin
      rw [h c hin] at hc
      cases hc
    rw [hline, List.contains_iff_mem, List.mem_append, List.mem_append]
    simp [hnot hbefore, hnot hafter]
  have hsemicolon : isWhitespace ';' = false := by decide
  have hbracket : isWhitespace '(' = false := by decide
  unfold cleanLine readWords
  dsimp only
  simp only [hmem hsemicolon, hmem hbracket]
  split
  · rw [words_trim, words_firstSegment_trim rawLine hsemicolon]
  · split
    · rw [words_trim, words_firstSegment_trim rawLine hbracket]
    · rename_i hnone
      have hall : rawLine.toList.takeWhile (· != '(') = rawLine.toList := by
        refine List.takeWhile_eq_self_iff.mpr fun c hc => ?_
        have hne : c ≠ '(' := by
          rintro rfl
          exact hnone hc
        simpa using hne
      rw [words_trim, firstSegment, hall, String.ofList_toList]

theorem parseTokens_cleanLine (rawLine : String) :
    parseTokens φ (cleanLine rawLine) = (readWords rawLine).filterMap (parseToken φ) := by
  rw [parseTokens, words_cleanLine]

/-- A word has a number where it gives a token. -/
theorem numberedAxis_eq (word : String) :
    numberedAxis φ word = (parseToken φ word).bind fun (letter, _) => axisOf homeAxes letter := by
  unfold numberedAxis parseToken
  cases word.toList with
  | nil => rfl
  | cons letter rest =>
    dsimp only
    cases Decimals.parse (φ := φ) (String.ofList rest) <;> rfl

theorem readAxes_eq (rawLine : String) :
    readAxes φ rawLine = ((readWords rawLine).filterMap (parseToken φ)).filterMap
      fun (letter, _) => axisOf homeAxes letter := by
  rw [List.filterMap_filterMap, readAxes]
  exact congrArg (List.filterMap · _) (funext numberedAxis_eq)

/-! ## What is homed -/

theorem foldl_homeAxis (s : LowerState) (axes : List String) :
    (axes.foldl LowerState.homeAxis s).commands =
        s.commands ++ axes.map (.home · s.lowerer.currentFeedRateUmS) ∧
      ∀ axis : String, (axes.foldl LowerState.homeAxis s).lowerer.positions[axis]? =
        if axis ∈ axes then some 0 else s.lowerer.positions[axis]? := by
  induction axes generalizing s with
  | nil => simp
  | cons first axes ih =>
    obtain ⟨hcommands, hpositions⟩ := ih (s.homeAxis first)
    rw [List.foldl_cons]
    constructor
    · rw [hcommands]
      simp [LowerState.homeAxis, LowerState.emit, LowerState.track]
    · intro axis
      rw [hpositions axis]
      simp only [LowerState.homeAxis, LowerState.emit, LowerState.track,
        Std.TreeMap.getElem?_insert, Std.LawfulEqOrd.compare_eq_iff_eq, List.mem_cons]
      grind

/-- The axes that the lowerer homes where it reads the code for homing. -/
def homedAxes (φ : Type) [Decimals φ] (rawLine : String) : List String :=
  if (readAxes φ rawLine).isEmpty then homeAxes else readAxes φ rawLine

theorem axisOf_of_homingCode {letter : Char} {number : UInt64}
    (h : codeTable.lookup (letter, number) = some .home) : axisOf homeAxes letter = none := by
  obtain ⟨before, after, htable, -⟩ := List.lookup_eq_some_iff.mp h
  have hmem : ((letter, number), LineCode.home) ∈ codeTable := by
    rw [htable]
    exact List.mem_append_right before List.mem_cons_self
  have hletters : ∀ entry ∈ codeTable, axisOf homeAxes entry.1.1 = none := by
    decide +kernel
  exact hletters ((letter, number), .home) hmem

theorem lowerLine_of_homing {rawLine : String}
    (h : Homing φ ((readWords rawLine).filterMap (parseToken φ))) :
    s.lowerLine φ rawLine = some ((homedAxes φ rawLine).foldl LowerState.homeAxis s) := by
  obtain ⟨letter, number, params, htokens, hcode⟩ := h
  have hread : readAxes φ rawLine = params.filterMap fun (axis, _) => axisOf homeAxes axis := by
    simp [readAxes_eq, htokens, axisOf_of_homingCode hcode]
  rw [LowerState.lowerLine, parseTokens_cleanLine, htokens, LowerState.lowerTokens, hcode,
    homedAxes, hread]
  rfl

/-- A homing line homes exactly the axes of a list, if and only if the list has those axes. -/
theorem homesExactly_foldl_homeAxis {axes : List String} {named : String → Prop} :
    HomesExactly s (axes.foldl LowerState.homeAxis s) named ↔ ∀ axis, axis ∈ axes ↔ named axis := by
  obtain ⟨hcommands, hpositions⟩ := foldl_homeAxis s axes
  constructor
  · rintro ⟨⟨homed, hhomed, hemitted⟩, -, -⟩
    have hmap := List.append_cancel_left (hcommands.symm.trans hemitted)
    have hinjective : Function.Injective
        (Command.home · s.lowerer.currentFeedRateUmS) := fun _ _ heq => (Command.home.inj heq).1
    obtain rfl := List.map_injective_iff.mpr hinjective hmap
    exact hhomed
  · intro haxes
    refine ⟨⟨axes, haxes, hcommands⟩, ?_, ?_⟩
    · intro axis hnamed
      rw [hpositions, if_pos ((haxes axis).mpr hnamed)]
    · intro axis hnamed
      rw [hpositions, if_neg (mt (haxes axis).mp hnamed)]

/-! ## Other lines home nothing -/

def homedBy : Command → Option String
  | .home axis _ => some axis
  | _ => none

theorem homes_applyWord {word : String × AxisWord} (hword : word.2 ≠ .home)
    (h : s.applyWord word = some next) :
    next.commands.filterMap homedBy = s.commands.filterMap homedBy := by
  obtain ⟨axis, word⟩ := word
  cases word with
  | home => exact absurd rfl hword
  | moveTo | moveBy =>
    obtain ⟨_, -, rfl⟩ := Option.map_eq_some_iff.mp h
    simp [homedBy]

theorem homes_foldlM {words : List (String × AxisWord)} (hwords : ∀ word ∈ words, word.2 ≠ .home)
    (h : words.foldlM LowerState.applyWord s = some next) :
    next.commands.filterMap homedBy = s.commands.filterMap homedBy := by
  induction words generalizing s with
  | nil =>
    obtain rfl := Option.some.inj h
    rfl
  | cons word words ih =>
    rw [List.forall_mem_cons] at hwords
    rw [List.foldlM_cons] at h
    obtain ⟨first, hfirst, hrest⟩ := Option.bind_eq_some_iff.mp h
    rw [ih hwords.2 hrest, homes_applyWord hwords.1 hfirst]

theorem homes_heaterTarget (heater : String) (tokens : List (Char × φ)) :
    (s.heaterTarget heater tokens).commands.filterMap homedBy = s.commands.filterMap homedBy := by
  unfold LowerState.heaterTarget
  split
  · rfl
  · simp [homedBy]

theorem homes_prepare (tokens : List (Char × φ)) :
    (s.prepare tokens).commands.filterMap homedBy = s.commands.filterMap homedBy := by
  unfold LowerState.prepare
  cases tokens with
  | nil => rfl
  | cons token params =>
    dsimp only
    cases codeTable.lookup (token.1, Decimals.whole token.2) with
    | none => rfl
    | some code =>
      cases code with
      | absolute | relative | home | linear => rfl
      | hotendTarget | bedTarget => exact homes_heaterTarget _ _
      | heartbeat => simp [homedBy]

/-- A line that the lowerer does not read as homing gives no command to home an axis. -/
theorem homes_lowerTokens {tokens : List (Char × φ)} (hother : ¬ Homing φ tokens)
    (h : s.lowerTokens tokens = some next) :
    next.commands.filterMap homedBy = s.commands.filterMap homedBy := by
  rw [LowerState.lowerTokens_eq] at h
  refine (homes_foldlM ?_ h).trans (homes_prepare tokens)
  intro word hword
  cases tokens with
  | nil => cases hword
  | cons token params =>
    obtain ⟨letter, number⟩ := token
    unfold lineWords at hword
    dsimp only at hword
    split at hword
    · rename_i hcode
      exact absurd ⟨letter, number, params, rfl, hcode⟩ hother
    · obtain ⟨⟨axis, targetUm⟩, -, rfl⟩ := List.mem_map.mp hword
      dsimp only
      split <;> simp
    · cases hword

theorem homing_of_homesExactly {rawLine axis : String} {named : String → Prop} (hnamed : named axis)
    (h : s.lowerLine φ rawLine = some next) (hexactly : HomesExactly s next named) :
    Homing φ ((readWords rawLine).filterMap (parseToken φ)) := by
  rw [LowerState.lowerLine, parseTokens_cleanLine] at h
  by_contra hother
  have hhomes := homes_lowerTokens hother h
  obtain ⟨axes, haxes, hcommands⟩ := hexactly.emitted
  rw [hcommands, List.filterMap_append, List.filterMap_map] at hhomes
  have hnone := List.append_cancel_left (hhomes.trans (List.append_nil _).symm)
  cases List.filterMap_eq_nil_iff.mp hnone axis ((haxes axis).mpr hnamed)

/-! ## Lines that name axes -/

/-- Wherever the program is, the axes that a line names are homed and no other, if and only if the
lowerer reads the code and the words for them. -/
theorem homesExactly_iff {rawLine : String} (hnamed : ∃ axis, Names φ rawLine axis) :
    (∃ next, s.lowerLine φ rawLine = some next ∧ HomesExactly s next (Names φ rawLine)) ↔
      WordsReach φ rawLine := by
  obtain ⟨axis, haxis⟩ := hnamed
  have hsplit (hhoming : Homing φ ((readWords rawLine).filterMap (parseToken φ))) :
      (∃ next, s.lowerLine φ rawLine = some next ∧ HomesExactly s next (Names φ rawLine)) ↔
        ∀ axis, axis ∈ homedAxes φ rawLine ↔ Names φ rawLine axis := by
    simp only [lowerLine_of_homing hhoming, Option.some.injEq, exists_eq_left',
      homesExactly_foldl_homeAxis]
  constructor
  · rintro ⟨next, hnext, hexactly⟩
    have hhoming := homing_of_homesExactly haxis hnext hexactly
    have haxes := (hsplit hhoming).mp ⟨next, hnext, hexactly⟩
    unfold homedAxes at haxes
    split at haxes
    · rename_i hempty
      have hnone := List.isEmpty_iff.mp hempty
      exact ⟨hhoming, by simp [hnone], .inr ⟨hnone, fun axis => (haxes axis).mp⟩⟩
    · exact ⟨hhoming, fun axis => (haxes axis).mp, .inl fun axis => (haxes axis).mpr⟩
  · intro hreach
    refine (hsplit hreach.homing).mpr ?_
    unfold homedAxes
    obtain hall | ⟨hnone, hall⟩ := hreach.read
    · have hsome : ¬ (readAxes φ rawLine).isEmpty := by
        intro hempty
        have hread := hall axis haxis
        rw [List.isEmpty_iff.mp hempty] at hread
        cases hread
      rw [if_neg hsome]
      intro axis
      exact ⟨hreach.named axis, hall axis⟩
    · rw [if_pos (List.isEmpty_iff.mpr hnone)]
      intro axis
      exact ⟨hall axis, mem_homeAxes_of_names⟩

end Naming

/-! ## Homing lines -/

/-- Both comments are left out, and both axes are homed. -/
theorem homesExactly_commented : ∃ next,
    (LowerState.start (.new .default)).lowerLine ℚ "g28 Z0 x0 (home) ; Y0 too" = some next ∧
      HomesExactly (.start (.new .default)) next (Names ℚ "g28 Z0 x0 (home) ; Y0 too") := by
  refine (homesExactly_iff ⟨"x", by decide +kernel⟩).mpr ⟨?_, by decide +kernel, .inl ?_⟩
  · exact ⟨'G', 28, [('Z', 0), ('X', 0)], by decide +kernel, by decide +kernel⟩
  · have hread : ∀ axis ∈ homeAxes, Names ℚ "g28 Z0 x0 (home) ; Y0 too" axis →
        axis ∈ readAxes ℚ "g28 Z0 x0 (home) ; Y0 too" := by
      decide +kernel
    exact fun axis hnamed => hread axis (mem_homeAxes_of_names hnamed) hnamed

theorem not_homesExactly_of_homed {rawLine : String}
    (hhomed : ((LowerState.start (.new .default)).lowerLine ℚ rawLine).bind
      (fun next => next.lowerer.positions["y"]?) = some 0)
    (hother : ¬ Names ℚ rawLine "y") :
    ¬ ∃ next, (LowerState.start (.new .default)).lowerLine ℚ rawLine = some next ∧
      HomesExactly (.start (.new .default)) next (Names ℚ rawLine) := by
  rintro ⟨next, hnext, hexactly⟩
  rw [hnext, Option.bind_some, hexactly.others "y" hother] at hhomed
  simp [LowerState.start, GcodeLowerer.new] at hhomed

/-- A letter alone names its axis, and so does a word behind a comment, but all axes are homed. -/
theorem not_homesExactly :
    (HomingLine ℚ "G28 X" ∧ Names ℚ "G28 X" "x" ∧
      ¬ ∃ next, (LowerState.start (.new .default)).lowerLine ℚ "G28 X" = some next ∧
        HomesExactly (.start (.new .default)) next (Names ℚ "G28 X")) ∧
    HomingLine ℚ "G28 (home) X0" ∧ Names ℚ "G28 (home) X0" "x" ∧
      ¬ ∃ next, (LowerState.start (.new .default)).lowerLine ℚ "G28 (home) X0" = some next ∧
        HomesExactly (.start (.new .default)) next (Names ℚ "G28 (home) X0") := by
  constructor
  · exact ⟨⟨'G', 28, [], by decide +kernel, by decide +kernel⟩, by decide +kernel,
      not_homesExactly_of_homed (by decide +kernel) (by decide +kernel)⟩
  · exact ⟨⟨'G', 28, [('X', 0)], by decide +kernel, by decide +kernel⟩, by decide +kernel,
      not_homesExactly_of_homed (by decide +kernel) (by decide +kernel)⟩

end Dryer.Toolpath
