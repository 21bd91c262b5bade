import Mathlib.Data.List.TakeWhile
import Std.Data.TreeMap

/-!
# Machine documents

Diagnostics with their places in the source, identifiers, and what the resolver reads of a machine
document.
-/
namespace Dryer.MachineSchema

/-! ## Diagnostics -/

/-- A 1-based position in a source document. -/
structure SourcePosition where
  line : ℕ
  column : ℕ
  deriving DecidableEq

/-- The range of a key or sequence item. The end is exclusive. -/
structure SourceSpan where
  document : Option String
  path : Option String
  start : SourcePosition
  «end» : SourcePosition
  deriving DecidableEq

/-- A second place in the source that takes part in a diagnostic. -/
structure RelatedDiagnostic where
  message : String
  path : Option String
  source : Option SourceSpan
  deriving DecidableEq

def RelatedDiagnostic.withSource (message : String) (source : SourceSpan) :
    RelatedDiagnostic where
  message
  path := source.path
  source := some source

inductive Severity where
  | error
  | warning
  | info
  deriving DecidableEq

structure Diagnostic where
  code : String
  severity : Severity
  message : String
  path : Option String
  line : Option ℕ
  column : Option ℕ
  source : Option SourceSpan
  related : List RelatedDiagnostic
  suggestions : List String
  deriving DecidableEq

namespace Diagnostic

def error (code message : String) : Diagnostic where
  code
  severity := .error
  message
  path := none
  line := none
  column := none
  source := none
  related := []
  suggestions := []

def warning (code message : String) : Diagnostic :=
  { error code message with severity := .warning }

def «at» (d : Diagnostic) (path : String) : Diagnostic := { d with path := some path }

/-- A diagnostic without a path takes that of its source. -/
def withSource (d : Diagnostic) (source : SourceSpan) : Diagnostic :=
  { d with
    path := d.path.orElse fun _ => source.path
    line := some source.start.line
    column := some source.start.column
    source := some source }

def relatedSource (d : Diagnostic) (message : String) (source : SourceSpan) : Diagnostic :=
  { d with related := d.related ++ [.withSource message source] }

@[simp] theorem severity_error (code message : String) : (error code message).severity = .error :=
  rfl

@[simp] theorem severity_warning (code message : String) :
    (warning code message).severity = .warning := rfl

@[simp] theorem severity_at (d : Diagnostic) (path : String) :
    (d.at path).severity = d.severity := rfl

@[simp] theorem severity_withSource (d : Diagnostic) (source : SourceSpan) :
    (d.withSource source).severity = d.severity := rfl

@[simp] theorem severity_relatedSource (d : Diagnostic) (message : String) (source : SourceSpan) :
    (d.relatedSource message source).severity = d.severity := rfl

end Diagnostic

/-! ## Identifiers -/

def isAsciiLowercase (c : Char) : Bool := 'a' ≤ c && c ≤ 'z'

def isAsciiDigit (c : Char) : Bool := '0' ≤ c && c ≤ '9'

/-- Lowercase letters, digits, `_` and `-`, beginning with a letter. -/
def validIdentifier (s : String) : Bool :=
  match s.toList with
  | [] => false
  | c :: rest =>
    isAsciiLowercase c &&
      rest.all fun c => isAsciiLowercase c || isAsciiDigit c || c == '_' || c == '-'

theorem isIdentifierChar_of_validIdentifier {s : String} (h : validIdentifier s) {c : Char}
    (hc : c ∈ s.toList) : isAsciiLowercase c || isAsciiDigit c || c == '_' || c == '-' := by
  unfold validIdentifier at h
  cases hlist : s.toList with
  | nil => simp [hlist] at hc
  | cons first rest =>
    rw [hlist] at h hc
    obtain ⟨hfirst, hrest⟩ := Bool.and_eq_true_iff.mp h
    obtain rfl | hlater := List.mem_cons.mp hc
    · simp [hfirst]
    · exact List.all_eq_true.mp hrest c hlater

/-- An identifier has no point, no slash, and nothing else that separates. -/
theorem notMem_of_validIdentifier {s : String} (h : validIdentifier s) {c : Char}
    (hc : (isAsciiLowercase c || isAsciiDigit c || c == '_' || c == '-') = false) :
    c ∉ s.toList := by
  intro hmem
  rw [isIdentifierChar_of_validIdentifier h hmem] at hc
  cases hc

/-- The parts before and after the first occurrence of a character. -/
def splitOnce (s : String) (separator : Char) : Option (String × String) :=
  match s.toList.dropWhile (· != separator) with
  | [] => none
  | _ :: rest => some (String.ofList (s.toList.takeWhile (· != separator)), String.ofList rest)

/-- A package reference without a version. -/
def validPackageRefName (raw : String) : Bool :=
  match splitOnce raw '/' with
  | none => false
  | some («namespace», name) => validIdentifier «namespace» && validIdentifier name

theorem takeWhile_dropWhile_ne {separator : Char} {before : List Char} (h : separator ∉ before)
    (after : List Char) :
    (before ++ separator :: after).takeWhile (· != separator) = before ∧
      (before ++ separator :: after).dropWhile (· != separator) = separator :: after := by
  induction before with
  | nil => simp
  | cons c before ih =>
    obtain ⟨hne, hrest⟩ := not_or.mp (mt List.mem_cons.mpr h)
    obtain ⟨htake, hdrop⟩ := ih hrest
    simp [htake, hdrop, Ne.symm hne]

/-- A string is split at the first separator. -/
theorem splitOnce_eq_some {s before after : String} {separator : Char} :
    splitOnce s separator = some (before, after) ↔
      separator ∉ before.toList ∧ s.toList = before.toList ++ separator :: after.toList := by
  constructor
  · intro h
    have hsplit := List.takeWhile_append_dropWhile (p := (· != separator)) (l := s.toList)
    unfold splitOnce at h
    cases hdrop : s.toList.dropWhile (· != separator) with
    | nil => simp [hdrop] at h
    | cons c rest =>
      simp only [hdrop, Option.some.injEq, Prod.mk.injEq] at h
      obtain ⟨rfl, rfl⟩ := h
      have hfirst : c = separator := by
        have hnot := List.head_dropWhile_not (· != separator) (l := s.toList) (by simp [hdrop])
        simpa [hdrop] using hnot
      rw [hdrop, hfirst] at hsplit
      rw [String.toList_ofList, String.toList_ofList, hsplit]
      exact ⟨fun hmem => by simpa using List.mem_takeWhile_imp hmem, rfl⟩
  · rintro ⟨hbefore, hsplit⟩
    obtain ⟨htake, hdrop⟩ := takeWhile_dropWhile_ne hbefore after.toList
    unfold splitOnce
    rw [hsplit, htake, hdrop]
    simp

/-! ## Documents -/

structure Controller where
  board : String

structure Safety where
  profile : String

inductive WorkflowRef where
  | simple (raw : String)
  | invocation (package : String)

def WorkflowRef.package : WorkflowRef → String
  | simple raw => raw
  | invocation package => package

/-- What package resolution reads of a machine document. -/
structure MachineDoc where
  packages : List String
  controllers : Std.TreeMap String Controller
  safety : Safety
  workflows : Std.TreeMap String WorkflowRef

end Dryer.MachineSchema
