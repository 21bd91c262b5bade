import Dryer.Library.Histories
import Dryer.Library.Text
import Dryer.Simulator.Traces

/-!
# Recorded traces

A trace is written with one JSON object a line, read again, and compared with the trace of
another run. JSON is that of a library, of which the model only knows that an object is one line
and can be read again.
-/
namespace Dryer.Simulator
open Library ControlProtocol

structure TraceDivergence where
  eventIndex : ℕ
  firstDivergentTick : Option Tick
  expected : Option Event
  actual : Option Event
  deriving DecidableEq

structure ReplayReport where
  matched : Bool
  expectedEvents : ℕ
  actualEvents : ℕ
  divergence : Option TraceDivergence
  deriving DecidableEq

namespace Trace

/-- One object a line. -/
def toJsonLines (toJson : Event → String) (trace : Trace) : String :=
  String.join (trace.map fun e => toJson e ++ "\n")

/-- Blank lines are skipped. -/
def fromJsonLines {ε : Type} (fromJson : String → Except ε Event) (text : String) :
    Except ε Trace :=
  ((lines text).filter fun line => !(trim line).isEmpty).mapM fromJson

/-- The index of the first divergent event. -/
def firstDivergence (actual other : Trace) : Option ℕ :=
  (List.range (max actual.length other.length)).find? fun i => actual[i]? ≠ other[i]?

def divergence (actual expected : Trace) (eventIndex : ℕ) : TraceDivergence :=
  let actual := actual[eventIndex]?
  let expected := expected[eventIndex]?
  let firstDivergentTick := match actual.map Event.at, expected.map Event.at with
    | some actual, some expected => some (min actual expected)
    | actual, expected => actual <|> expected
  { eventIndex, firstDivergentTick, expected, actual }

def replayReport (actual expected : Trace) : ReplayReport :=
  let divergence := (firstDivergence actual expected).map (divergence actual expected)
  { matched := divergence.isNone
    expectedEvents := expected.length
    actualEvents := actual.length
    divergence }

/-! ## Divergence -/

variable {actual expected : Trace}

theorem firstDivergence_eq_none : firstDivergence actual expected = none ↔ actual = expected := by
  simp only [firstDivergence, List.find?_eq_none, List.mem_range, decide_eq_true_eq, not_not]
  refine ⟨fun h => List.ext_getElem? fun i => ?_, by rintro rfl i -; rfl⟩
  by_cases hi : i < max actual.length expected.length
  · exact h i hi
  · rw [List.getElem?_eq_none (by omega), List.getElem?_eq_none (by omega)]

theorem firstDivergence_eq_some {i : ℕ} (h : firstDivergence actual expected = some i) :
    actual.take i = expected.take i ∧ actual[i]? ≠ expected[i]? := by
  simp only [firstDivergence, List.find?_range_eq_some, decide_eq_true_eq, Bool.not_eq_true',
    decide_eq_false_iff_not, not_not] at h
  obtain ⟨hne, -, hbefore⟩ := h
  refine ⟨List.ext_getElem? fun j => ?_, hne⟩
  simp only [List.getElem?_take]
  split
  · exact hbefore j ‹_›
  · rfl

/-- The tick of a divergence is the first one at which the histories differ. -/
structure DivergesAt (actual expected : Trace) (tick : Tick) : Prop where
  now : actual.filter (·.at = tick) ≠ expected.filter (·.at = tick)
  before : ∀ earlier < tick, actual.filter (·.at = earlier) = expected.filter (·.at = earlier)

theorem DivergesAt.symm {tick : Tick} (h : DivergesAt actual expected tick) :
    DivergesAt expected actual tick :=
  ⟨h.now.symm, fun earlier hearlier => (h.before earlier hearlier).symm⟩

theorem filter_at (trace : Trace) (tick : Tick) :
    trace.filter (·.at = tick) = trace.filter (·.at.toNat = tick.toNat) :=
  List.filter_congr fun _ _ => decide_eq_decide.mpr UInt64.toNat_inj.symm

theorem pairwise_of_chronological {trace : Trace} (h : Chronological trace) :
    trace.Pairwise fun a b => a.at.toNat ≤ b.at.toNat :=
  h.imp UInt64.le_iff_toNat_le.mp

/-- Two chronological traces diverge at the tick of an event that is not in the other and not
later than the one there. -/
theorem divergesAt_of_le (hactual : Chronological actual) (hexpected : Chronological expected)
    {i : ℕ} (htake : actual.take i = expected.take i) {e : Event} (he : actual[i]? = some e)
    (hfirst : ∀ other ∈ expected[i]?, e.at ≤ other.at) (hne : expected[i]? ≠ some e) :
    DivergesAt actual expected e.at := by
  obtain ⟨hnow, hbefore⟩ := @first_difference Event ℕ _ (fun e => e.at.toNat) _ _
    (pairwise_of_chronological hactual) (pairwise_of_chronological hexpected) _ htake _ he
    (fun other hother => UInt64.le_iff_toNat_le.mp (hfirst other hother)) hne
  refine ⟨?_, fun earlier hearlier => ?_⟩
  · rwa [filter_at, filter_at]
  · rw [filter_at, filter_at]
    exact hbefore _ (UInt64.lt_iff_toNat_lt.mp hearlier)

theorem divergence_tick (hactual : Chronological actual) (hexpected : Chronological expected)
    {i : ℕ} (htake : actual.take i = expected.take i) (hne : actual[i]? ≠ expected[i]?) :
    ∃ tick, (divergence actual expected i).firstDivergentTick = some tick ∧
      DivergesAt actual expected tick := by
  unfold divergence
  cases ha : actual[i]? with
  | none =>
    cases he : expected[i]? with
    | none => exact absurd (ha.trans he.symm) hne
    | some e =>
      exact ⟨e.at, rfl, (divergesAt_of_le hexpected hactual htake.symm he (by simp [ha])
        (by simp [ha])).symm⟩
  | some a =>
    cases he : expected[i]? with
    | none =>
      exact ⟨a.at, rfl, divergesAt_of_le hactual hexpected htake ha (by simp [he]) (by simp [he])⟩
    | some e =>
      refine ⟨min a.at e.at, rfl, ?_⟩
      rw [ha, he] at hne
      by_cases hle : a.at ≤ e.at
      · rw [show min a.at e.at = a.at from if_pos hle]
        exact divergesAt_of_le hactual hexpected htake ha (by simpa [he] using hle)
          (by simpa [he] using hne.symm)
      · rw [show min a.at e.at = e.at from if_neg hle]
        exact (divergesAt_of_le hexpected hactual htake.symm he
          (by simpa [ha] using UInt64.le_of_lt (UInt64.not_le.mp hle))
          (by simpa [ha] using hne)).symm

/-- A replay report is exact. It matches where the traces are equal. Otherwise it names the first
event that differs, with what both traces have there, and the first tick at which chronological
traces differ. -/
theorem replayReport_exact (actual expected : Trace) :
    ((replayReport actual expected).matched ↔ actual = expected) ∧
    ∀ divergence, (replayReport actual expected).divergence = some divergence →
      actual.take divergence.eventIndex = expected.take divergence.eventIndex ∧
      divergence.actual = actual[divergence.eventIndex]? ∧
      divergence.expected = expected[divergence.eventIndex]? ∧
      divergence.actual ≠ divergence.expected ∧
      (Chronological actual → Chronological expected →
        ∃ tick, divergence.firstDivergentTick = some tick ∧ DivergesAt actual expected tick) := by
  refine ⟨?_, fun found hfound => ?_⟩
  · rw [← firstDivergence_eq_none]
    simp [replayReport]
  · obtain ⟨i, hi, rfl⟩ := Option.map_eq_some_iff.mp hfound
    obtain ⟨htake, hne⟩ := firstDivergence_eq_some hi
    exact ⟨htake, rfl, rfl, hne, fun hactual hexpected =>
      divergence_tick hactual hexpected htake hne⟩

/-! ## Files -/

/-- A line that is read back as its event: a JSON object without line feeds. -/
structure JsonLine {ε : Type} (toJson : Event → String) (fromJson : String → Except ε Event)
    (e : Event) : Prop where
  object : ∃ members, (toJson e).toList = '{' :: (members ++ ['}']) ∧ '\n' ∉ members
  read : fromJson (toJson e) = .ok e

variable {ε : Type} {toJson : Event → String} {fromJson : String → Except ε Event}

/-- An object is not blank, and does not end with a carriage return. -/
theorem JsonLine.plain {e : Event} (h : JsonLine toJson fromJson e) :
    (trim (toJson e)).isEmpty = false ∧ '\n' ∉ (toJson e).toList ∧
      (toJson e).toList.getLast? ≠ some '\r' := by
  obtain ⟨members, hobject, hmembers⟩ := h.object
  have hfirst : (toJson e).toList.head? = some '{' := by rw [hobject, List.head?_cons]
  have hlast : (toJson e).toList.getLast? = some '}' := by
    rw [hobject, ← List.cons_append, List.getLast?_concat]
  refine ⟨?_, ?_, ?_⟩
  · have htrim : trim (toJson e) = toJson e := by
      apply trim_eq_self
      · intro c hc
        rw [hfirst, Option.mem_some_iff] at hc
        exact hc ▸ isWhitespace_eq_false (by decide) (by decide)
      · intro c hc
        rw [hlast, Option.mem_some_iff] at hc
        exact hc ▸ isWhitespace_eq_false (by decide) (by decide)
    rw [htrim, ← Bool.not_eq_true, String.isEmpty_iff]
    intro hempty
    rw [hempty] at hfirst
    cases hfirst
  · rw [hobject]
    simp [hmembers]
  · rw [hlast]
    decide

/-- Reading the file of a trace gives the trace. -/
theorem fromJsonLines_toJsonLines {trace : Trace} (h : ∀ e ∈ trace, JsonLine toJson fromJson e) :
    fromJsonLines fromJson (toJsonLines toJson trace) = .ok trace := by
  have hlines : lines (toJsonLines toJson trace) = trace.map toJson := by
    have hjoin := lines_join (List.forall_mem_map.mpr fun e he => (h e he).plain.2)
    rwa [List.map_map] at hjoin
  have hblank : (trace.map toJson).filter (fun line => !(trim line).isEmpty) = trace.map toJson :=
    List.filter_eq_self.mpr (List.forall_mem_map.mpr fun e he => by rw [(h e he).plain.1]; rfl)
  rw [fromJsonLines, hlines, hblank, mapM_eq_ok, List.map_map]
  exact List.map_congr_left fun e he => (h e he).read

end Trace

/-- The trace of a run is recorded in a file and compared with the trace of another run. The file
is read as the trace that was written. The report matches where the traces are equal. Otherwise it
names the first event that differs, with what both traces have there, and the first tick at which
the two runs logged different events. -/
theorem replay_of_recording {θ : Type} [F64 θ] {ε : Type} {toJson : Event → String}
    {fromJson : String → Except ε Event} {rig rig' : Rig θ} {events events' : List RigEvent}
    (hnew : rig.controller.trace = []) (hnew' : rig'.controller.trace = [])
    (hfits : (rigMachine θ).Along TicksFit rig events)
    (hfits' : (rigMachine θ).Along TicksFit rig' events')
    (hjson : ∀ e ∈ rig.traceAfter events, Trace.JsonLine toJson fromJson e) :
    let recorded := rig.traceAfter events
    let actual := rig'.traceAfter events'
    ∃ expected, Trace.fromJsonLines fromJson (Trace.toJsonLines toJson recorded) = .ok expected ∧
      ((Trace.replayReport actual expected).matched ↔ actual = recorded) ∧
      ∀ divergence, (Trace.replayReport actual expected).divergence = some divergence →
        actual.take divergence.eventIndex = recorded.take divergence.eventIndex ∧
        divergence.actual = actual[divergence.eventIndex]? ∧
        divergence.expected = recorded[divergence.eventIndex]? ∧
        divergence.actual ≠ divergence.expected ∧
        ∃ tick, divergence.firstDivergentTick = some tick ∧
          Trace.DivergesAt actual recorded tick := by
  intro recorded actual
  have hrecorded : Chronological recorded :=
    (continues_run hfits).chronological (hnew ▸ List.Pairwise.nil) (by simp [hnew])
  have hactual : Chronological actual :=
    (continues_run hfits').chronological (hnew' ▸ List.Pairwise.nil) (by simp [hnew'])
  obtain ⟨hmatched, hdivergence⟩ := Trace.replayReport_exact actual recorded
  refine ⟨recorded, Trace.fromJsonLines_toJsonLines hjson, hmatched, fun divergence h => ?_⟩
  obtain ⟨htake, ha, he, hne, htick⟩ := hdivergence divergence h
  exact ⟨htake, ha, he, hne, htick hactual hrecorded⟩

/-- A reset at the start, replayed by a run with a reset one step later. -/
theorem replay_of_recording_late_reset :
    let rig : Rig ℤ := .new 25000 [] [] .default
    let toJson : Event → String := fun
      | .reset _ => "\x7b\"event\":\"reset\",\"at\":0\x7d"
      | _ => "\x7b\"event\":\"fault_latched\",\"at\":0,\"code\":\"controller-reset\"\x7d"
    let fromJson : String → Except Unit Event := fun line =>
      if line = toJson (.reset 0) then .ok (.reset 0)
      else .ok (.faultLatched 0 "controller-reset")
    ∃ expected, Trace.fromJsonLines fromJson
        (Trace.toJsonLines toJson (rig.traceAfter [.reset])) = .ok expected ∧
      ¬ (Trace.replayReport (rig.traceAfter [.step, .reset]) expected).matched := by
  intro rig toJson fromJson
  have hjson : ∀ e ∈ rig.traceAfter [.reset], Trace.JsonLine toJson fromJson e := by
    have htrace : rig.traceAfter [.reset] = [.reset 0, .faultLatched 0 "controller-reset"] := by
      decide +kernel
    rw [htrace]
    refine List.forall_mem_cons.mpr ⟨⟨⟨(toJson (.reset 0)).toList.tail.dropLast, ?_⟩, ?_⟩,
      List.forall_mem_singleton.mpr ⟨⟨(toJson (.faultLatched 0 "")).toList.tail.dropLast, ?_⟩, ?_⟩⟩
    all_goals decide +kernel
  obtain ⟨expected, hread, hmatched, -⟩ := @replay_of_recording ℤ _ Unit toJson fromJson rig rig
    [.reset] [.step, .reset] rfl rfl ⟨nofun, trivial⟩ ⟨fun _ => by decide, nofun, trivial⟩ hjson
  refine ⟨expected, hread, fun h => ?_⟩
  have heq := hmatched.mp h
  revert heq
  decide +kernel

end Dryer.Simulator
