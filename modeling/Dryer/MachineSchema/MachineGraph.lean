import Dryer.Library.Text
import Dryer.MachineSchema.MachineDoc

/-!
# Machine graphs

The machine document with all that the parser and the phases of the resolver read, and the texts
that diagnostics are made of.
-/
namespace Dryer.MachineSchema
open Library

/-! ## Diagnostics -/

namespace Diagnostic

def info (code message : String) : Diagnostic := { error code message with severity := .info }

def suggest (d : Diagnostic) (s : String) : Diagnostic :=
  { d with suggestions := d.suggestions ++ [s] }

def relatedAt (d : Diagnostic) (message path : String) : Diagnostic :=
  { d with related := d.related ++ [{ message, path := some path, source := none }] }

@[simp] theorem severity_info (code message : String) : (info code message).severity = .info := rfl

@[simp] theorem severity_suggest (d : Diagnostic) (s : String) :
    (d.suggest s).severity = d.severity := rfl

@[simp] theorem severity_relatedAt (d : Diagnostic) (message path : String) :
    (d.relatedAt message path).severity = d.severity := rfl

end Diagnostic

/-- The test before each phase of the resolver. -/
def hasError (diagnostics : List Diagnostic) : Bool :=
  diagnostics.any fun d => d.severity = .error

theorem hasError_eq_false {diagnostics : List Diagnostic} :
    hasError diagnostics = false ↔ ∀ d ∈ diagnostics, d.severity ≠ .error := by
  simp [hasError]

theorem hasError_append {before after : List Diagnostic} :
    hasError (before ++ after) = (hasError before || hasError after) := by
  simp [hasError]

/-- Diagnostics of which every one is an error. -/
def AllErrors (diagnostics : List Diagnostic) : Prop := ∀ d ∈ diagnostics, d.severity = .error

section AllErrors

variable {ds es : List Diagnostic} {α : Type}

@[simp] theorem AllErrors.nil : AllErrors [] := by
  intro d hd
  cases hd

@[simp] theorem allErrors_cons {d : Diagnostic} :
    AllErrors (d :: ds) ↔ d.severity = .error ∧ AllErrors ds := List.forall_mem_cons

@[simp] theorem allErrors_append : AllErrors (ds ++ es) ↔ AllErrors ds ∧ AllErrors es :=
  List.forall_mem_append

theorem AllErrors.flatMap {f : α → List Diagnostic} {as : List α}
    (h : ∀ a ∈ as, AllErrors (f a)) : AllErrors (as.flatMap f) := by
  intro d hd
  obtain ⟨a, ha, hda⟩ := List.mem_flatMap.mp hd
  exact h a ha d hda

/-- Where there are only errors, no error means nothing at all. -/
theorem AllErrors.hasError_eq_false (h : AllErrors ds) : hasError ds = false ↔ ds = [] := by
  rw [MachineSchema.hasError_eq_false]
  constructor
  · intro hnone
    exact List.eq_nil_iff_forall_not_mem.mpr fun d hd => hnone d hd (h d hd)
  · rintro rfl
    simp

end AllErrors

/-- The characters that have a short escape, with what follows the backslash. -/
def debugEscapes : List (ℕ × Char) :=
  [(0x0, '0'), (0x9, 't'), (0xa, 'n'), (0xd, 'r'), (0x22, Char.ofNat 0x22), (0x5c, Char.ofNat 0x5c)]

/-- Text as `{:?}` shows it, where every character is printable or has a short escape. It shows the
names of connectors, which a checked board has as identifiers. -/
def debugText (s : String) : String :=
  "\"" ++ String.ofList (s.toList.flatMap fun c =>
    match debugEscapes.lookup c.toNat with
    | some escaped => [Char.ofNat 0x5c, escaped]
    | none => [c]) ++ "\""

def debugTexts (texts : List String) : String :=
  "[" ++ String.intercalate ", " (texts.map debugText) ++ "]"

/-- The part before the first separator. -/
theorem firstSegment_of_splitOnce {s before after : String} {separator : Char}
    (h : splitOnce s separator = some (before, after)) : firstSegment s separator = before := by
  unfold splitOnce at h
  split at h
  · cases h
  · exact (Prod.mk.inj (Option.some.inj h)).1

/-! ## Machine documents -/

def apiVersion : String := "dryer.machine/v0.1"

def kindMachine : String := "Machine"

/-- A YAML value, of which only text is read. -/
inductive Value where
  | string (s : String)
  | other

def Value.asStr : Value → Option String
  | string s => some s
  | other => none

structure Transport where
  kind : String
  /-- For a child transport, `controller.port`. -/
  parent : Option String

structure Component where
  kind : String
  attributes : Std.TreeMap String Value

/-- The text of an attribute. -/
def Component.text (component : Component) (attr : String) : Option String :=
  component.attributes[attr]?.bind Value.asStr

structure Kinematics where
  kind : String
  limits : Std.TreeMap String String

/-- A controller of a machine graph. -/
structure GraphController extends Controller where
  transport : Transport

/-- A workflow of a machine graph, with the parameters that are passed to it. -/
structure GraphWorkflow where
  reference : WorkflowRef
  parameters : Std.TreeMap String Value

structure MachineGraph where
  apiVersion : String
  kind : String
  packages : List String
  controllers : Std.TreeMap String GraphController
  components : Std.TreeMap String Component
  kinematics : Kinematics
  safety : Safety
  workflows : Std.TreeMap String GraphWorkflow

/-- What package resolution reads of a machine graph. -/
def MachineGraph.doc (graph : MachineGraph) : MachineDoc where
  packages := graph.packages
  controllers := graph.controllers.map fun _ controller => controller.toController
  safety := graph.safety
  workflows := graph.workflows.map fun _ workflow => workflow.reference

end Dryer.MachineSchema
