import Dryer.Library.Lists
import Mathlib.Data.List.TakeWhile
import Mathlib.Tactic.Linarith

/-!
# Agendas

Items wait until a tick at which they are due, and are served in the order of these ticks,
items of one tick in the order in which they were added. A list that is kept sorted by
inserting each item before the first one that is due later is an agenda, as long as no item
is added that was due before the last tick served.
-/
namespace Dryer.Library

/-- What happens to an agenda. -/
inductive Mark (β : Type) where
  | added (item : β)
  | served (tick : ℕ) (taken : List β)
  | cleared
  deriving DecidableEq

namespace Mark

variable {β γ : Type}

def map (f : β → γ) : Mark β → Mark γ
  | added item => added (f item)
  | served tick taken => served tick (taken.map f)
  | cleared => cleared

def addedItems (marks : List (Mark β)) : List β :=
  marks.filterMap fun mark =>
    match mark with
    | added item => some item
    | _ => none

def takenItems (marks : List (Mark β)) : List β :=
  marks.flatMap fun mark =>
    match mark with
    | served _ taken => taken
    | _ => []

@[simp] theorem addedItems_append (marks later : List (Mark β)) :
    addedItems (marks ++ later) = addedItems marks ++ addedItems later :=
  List.filterMap_append

@[simp] theorem takenItems_append (marks later : List (Mark β)) :
    takenItems (marks ++ later) = takenItems marks ++ takenItems later :=
  List.flatMap_append

end Mark

namespace Agenda

variable {α β : Type}

/-! ## The queue -/

/-- Insert an item before the first one that is due later. -/
def insertByDue (due : α → ℕ) (item : α) (queue : List α) : List α :=
  queue.takeWhile (due · ≤ due item) ++ item :: queue.dropWhile (due · ≤ due item)

theorem insertIdx_findIdx? (due : α → ℕ) (item : α) (queue : List α) :
    queue.insertIdx ((queue.findIdx? fun other => due item < due other).getD queue.length) item =
      insertByDue due item queue := by
  unfold insertByDue
  induction queue with
  | nil => rfl
  | cons other queue ih =>
    by_cases hlater : due item < due other
    · simp [List.findIdx?_cons, hlater]
    · have hle : due other ≤ due item := not_lt.mp hlater
      have hindex : ((other :: queue).findIdx? fun other => due item < due other).getD
          (other :: queue).length =
            (queue.findIdx? fun other => due item < due other).getD queue.length + 1 := by
        rw [List.findIdx?_cons]
        cases queue.findIdx? fun other => due item < due other <;> simp [hlater]
      rw [hindex, List.insertIdx_succ_cons, ih]
      simp [hle]

/-- An item that is due last is added at the end. -/
theorem insertByDue_eq_append {due : α → ℕ} {item : α} {queue : List α}
    (h : ∀ other ∈ queue, due other ≤ due item) :
    insertByDue due item queue = queue ++ [item] := by
  have hle : ∀ other ∈ queue, decide (due other ≤ due item) = true := by simpa using h
  rw [insertByDue, List.takeWhile_eq_self_iff.mpr hle, List.dropWhile_eq_nil_iff.mpr hle]

/-- Items that come in the order of their ticks stay in that order. -/
theorem foldl_insertByDue {due : α → ℕ} {queue items : List α}
    (h : (queue ++ items).Pairwise fun a b => due a ≤ due b) :
    items.foldl (fun queue item => insertByDue due item queue) queue = queue ++ items := by
  induction items generalizing queue with
  | nil => exact (List.append_nil queue).symm
  | cons item items ih =>
    have hbefore := (List.pairwise_append.mp h).2.2
    rw [List.append_cons] at h
    rw [List.foldl_cons, insertByDue_eq_append fun other hother => hbefore other hother item
      (.head _), ih h, List.append_cons queue item items]

theorem map_insertByDue (due : β → ℕ) (f : α → β) (item : α) (queue : List α) :
    (insertByDue (due ∘ f) item queue).map f = insertByDue due (f item) (queue.map f) := by
  simp [insertByDue, List.takeWhile_map, List.dropWhile_map, Function.comp_def]

theorem length_insertByDue (due : α → ℕ) (item : α) (queue : List α) :
    (insertByDue due item queue).length = queue.length + 1 := by
  have hsplit := congrArg List.length
    (List.takeWhile_append_dropWhile (p := fun other => decide (due other ≤ due item)) (l := queue))
  simp only [insertByDue, List.length_append, List.length_cons] at hsplit ⊢
  omega

theorem mem_insertByDue {due : α → ℕ} {item other : α} {queue : List α} :
    other ∈ insertByDue due item queue ↔ other = item ∨ other ∈ queue := by
  have hsplit := List.takeWhile_append_dropWhile (p := fun other => decide (due other ≤ due item))
    (l := queue)
  conv_rhs => rw [← hsplit]
  simp only [insertByDue, List.mem_append, List.mem_cons]
  tauto

section Sorted

variable {due : α → ℕ} {queue : List α}

/-- In a queue sorted by due ticks, the items that are due form the front. -/
theorem mem_takeWhile_iff (h : queue.Pairwise fun a b => due a ≤ due b) (tick : ℕ) (item : α) :
    item ∈ queue.takeWhile (due · ≤ tick) ↔ item ∈ queue ∧ due item ≤ tick := by
  induction queue with
  | nil => simp
  | cons other queue ih =>
    rw [List.pairwise_cons] at h
    by_cases hdue : due other ≤ tick
    · rw [List.takeWhile_cons_of_pos (by simpa using hdue), List.mem_cons, ih h.2, List.mem_cons]
      grind
    · rw [List.takeWhile_cons_of_neg (by simpa using hdue)]
      grind

theorem mem_dropWhile_iff (h : queue.Pairwise fun a b => due a ≤ due b) (tick : ℕ) (item : α) :
    item ∈ queue.dropWhile (due · ≤ tick) ↔ item ∈ queue ∧ tick < due item := by
  induction queue with
  | nil => simp
  | cons other queue ih =>
    rw [List.pairwise_cons] at h
    by_cases hdue : due other ≤ tick
    · rw [List.dropWhile_cons_of_pos (by simpa using hdue), ih h.2, List.mem_cons]
      grind
    · rw [List.dropWhile_cons_of_neg (by simpa using hdue)]
      grind

end Sorted

/-! ## History -/

/-- An item with its place in the order of addition. -/
structure Entry (α : Type) where
  number : ℕ
  item : α

/-- The order of service. -/
def Before (due : α → ℕ) (e f : Entry α) : Prop :=
  due e.item < due f.item ∨ due e.item = due f.item ∧ e.number < f.number

/-- The mark ends the wait of an entry: it is served, or it is lost. -/
def Ends (due : α → ℕ) (e : Entry α) : Mark (Entry α) → Prop
  | .added _ => False
  | .served tick _ => due e.item ≤ tick
  | .cleared => True

/-- The entry was added, and no mark has ended its wait. -/
def Waits (due : α → ℕ) (marks : List (Mark (Entry α))) (e : Entry α) : Prop :=
  ∃ before after, marks = before ++ .added e :: after ∧ ∀ mark ∈ after, ¬ Ends due e mark

/-- What a sequence of marks has in common with the entries that wait after it. `now` is a tick
that nothing served was due after. -/
structure History (due : α → ℕ) (marks : List (Mark (Entry α))) (waiting : List (Entry α))
    (now : ℕ) : Prop where
  numbered : (Mark.addedItems marks).map Entry.number =
    List.range (Mark.addedItems marks).length
  sorted : waiting.Pairwise (Before due)
  waits : ∀ e, e ∈ waiting ↔ Waits due marks e
  served : ∀ before tick taken after, marks = before ++ .served tick taken :: after →
    ∀ e, e ∈ taken ↔ Waits due before e ∧ due e.item ≤ tick
  ordered : (Mark.takenItems marks).Pairwise (Before due)
  passed : ∀ e ∈ Mark.takenItems marks,
    due e.item ≤ now ∧ e.number < (Mark.addedItems marks).length ∧ ∀ w ∈ waiting, Before due e w

variable {due : α → ℕ} {marks : List (Mark (Entry α))} {waiting : List (Entry α)} {now : ℕ}

theorem waits_append_iff (mark : Mark (Entry α)) (e : Entry α) :
    Waits due (marks ++ [mark]) e ↔
      mark = .added e ∨ Waits due marks e ∧ ¬ Ends due e mark := by
  constructor
  · rintro ⟨before, after, heq, hends⟩
    obtain ⟨-, rfl, -⟩ | ⟨after, rfl, rfl⟩ := append_singleton_cases heq
    · exact .inl rfl
    · rw [List.forall_mem_append] at hends
      exact .inr ⟨⟨before, after, rfl, hends.1⟩, hends.2 _ (List.mem_singleton_self _)⟩
  · rintro (rfl | ⟨⟨before, after, rfl, hends⟩, hend⟩)
    · exact ⟨marks, [], rfl, by simp⟩
    · refine ⟨before, after ++ [mark], by simp, ?_⟩
      rw [List.forall_mem_append]
      exact ⟨hends, by simpa using hend⟩

theorem Waits.mem_addedItems {e : Entry α} (h : Waits due marks e) :
    e ∈ Mark.addedItems marks := by
  obtain ⟨before, after, rfl, -⟩ := h
  simp [Mark.addedItems]

namespace History

theorem nil : History due [] [] now := by
  constructor <;> simp [Mark.addedItems, Mark.takenItems, Waits]

theorem number_lt (h : History due marks waiting now) {e : Entry α}
    (he : e ∈ Mark.addedItems marks) : e.number < (Mark.addedItems marks).length := by
  have hmem : e.number ∈ (Mark.addedItems marks).map Entry.number := List.mem_map_of_mem he
  rw [h.numbered] at hmem
  exact List.mem_range.mp hmem

theorem sorted_due (h : History due marks waiting now) :
    waiting.Pairwise fun e f => due e.item ≤ due f.item := by
  refine h.sorted.imp fun hbefore => ?_
  unfold Before at hbefore
  omega

theorem advance (h : History due marks waiting now) {later : ℕ} (hle : now ≤ later) :
    History due marks waiting later :=
  { h with passed := fun e he => ⟨(h.passed e he).1.trans hle, (h.passed e he).2⟩ }

/-- What was served stays as it was described. -/
theorem served_append (h : History due marks waiting now) {mark : Mark (Entry α)}
    (hmark : ∀ tick taken, mark = .served tick taken →
      ∀ e, e ∈ taken ↔ Waits due marks e ∧ due e.item ≤ tick)
    (before : List (Mark (Entry α))) (tick : ℕ) (taken : List (Entry α))
    (after : List (Mark (Entry α))) (heq : marks ++ [mark] = before ++ .served tick taken :: after)
    (e : Entry α) : e ∈ taken ↔ Waits due before e ∧ due e.item ≤ tick := by
  obtain ⟨rfl, hlast, -⟩ | ⟨after, rfl, -⟩ := append_singleton_cases heq
  · exact hmark tick taken hlast e
  · exact h.served before tick taken after rfl e

/-- An item that is due no earlier than what was served takes its place in the queue. -/
theorem add (h : History due marks waiting now) {item : α} (hdue : now ≤ due item) :
    History due (marks ++ [.added ⟨(Mark.addedItems marks).length, item⟩])
      (insertByDue (due ∘ Entry.item) ⟨(Mark.addedItems marks).length, item⟩ waiting) now := by
  have hadded (e : Entry α) :
      Mark.addedItems (marks ++ [.added e]) = Mark.addedItems marks ++ [e] := by
    simp [Mark.addedItems]
  have htaken (e : Entry α) : Mark.takenItems (marks ++ [.added e]) = Mark.takenItems marks := by
    simp [Mark.takenItems]
  have hnumber : ∀ w ∈ waiting, w.number < (Mark.addedItems marks).length :=
    fun w hw => h.number_lt ((h.waits w).mp hw).mem_addedItems
  constructor
  case numbered => simp [hadded, h.numbered, List.range_succ]
  case sorted =>
    rw [insertByDue, List.pairwise_append]
    have hfront (w : Entry α) := mem_takeWhile_iff h.sorted_due (due item) w
    have hback (w : Entry α) := mem_dropWhile_iff h.sorted_due (due item) w
    refine ⟨h.sorted.sublist (List.takeWhile_sublist _), ?_, ?_⟩
    · refine List.pairwise_cons.mpr ⟨fun w hw => ?_, h.sorted.sublist (List.dropWhile_sublist _)⟩
      exact .inl ((hback w).mp hw).2
    · intro e he w hw
      obtain ⟨hmem, hle⟩ := (hfront e).mp he
      obtain rfl | hw := List.mem_cons.mp hw
      · have := hnumber e hmem
        unfold Before
        grind
      · exact .inl (lt_of_le_of_lt hle ((hback w).mp hw).2)
  case waits =>
    intro e
    rw [waits_append_iff, mem_insertByDue, h.waits]
    simp [Ends, eq_comm]
  case served => exact h.served_append nofun
  case ordered => rw [htaken]; exact h.ordered
  case passed =>
    rw [htaken, hadded]
    intro e he
    obtain ⟨hle, hlt, hbefore⟩ := h.passed e he
    refine ⟨hle, by rw [List.length_append]; omega, fun w hw => ?_⟩
    obtain rfl | hw := mem_insertByDue.mp hw
    · unfold Before
      grind
    · exact hbefore w hw

/-- At a tick everything that is due is taken off the front of the queue. -/
theorem serve (h : History due marks waiting now) :
    History due (marks ++ [.served now (waiting.takeWhile (due ·.item ≤ now))])
      (waiting.dropWhile (due ·.item ≤ now)) now := by
  have hfront (w : Entry α) := mem_takeWhile_iff h.sorted_due now w
  have hback (w : Entry α) := mem_dropWhile_iff h.sorted_due now w
  have hadded (taken : List (Entry α)) :
      Mark.addedItems (marks ++ [.served now taken]) = Mark.addedItems marks := by
    simp [Mark.addedItems]
  have htaken (taken : List (Entry α)) :
      Mark.takenItems (marks ++ [.served now taken]) = Mark.takenItems marks ++ taken := by
    simp [Mark.takenItems]
  have hsplit : (waiting.takeWhile (due ·.item ≤ now) ++
      waiting.dropWhile (due ·.item ≤ now)).Pairwise (Before due) := by
    rw [List.takeWhile_append_dropWhile]
    exact h.sorted
  rw [List.pairwise_append] at hsplit
  constructor
  case numbered => rw [hadded]; exact h.numbered
  case sorted => exact hsplit.2.1
  case waits =>
    intro e
    rw [waits_append_iff, hback, h.waits]
    simp [Ends]
  case served =>
    refine h.served_append fun tick taken hmark e => ?_
    cases hmark
    rw [hfront, h.waits]
  case ordered =>
    rw [htaken, List.pairwise_append]
    exact ⟨h.ordered, hsplit.1, fun e he w hw => (h.passed e he).2.2 w ((hfront w).mp hw).1⟩
  case passed =>
    rw [hadded, htaken]
    intro e he
    obtain he | he := List.mem_append.mp he
    · obtain ⟨hle, hlt, hbefore⟩ := h.passed e he
      exact ⟨hle, hlt, fun w hw => hbefore w ((hback w).mp hw).1⟩
    · obtain ⟨hmem, hle⟩ := (hfront e).mp he
      exact ⟨hle, h.number_lt ((h.waits e).mp hmem).mem_addedItems, hsplit.2.2 e he⟩

theorem clear (h : History due marks waiting now) :
    History due (marks ++ [.cleared]) [] now := by
  have hadded : Mark.addedItems (marks ++ [.cleared]) = Mark.addedItems marks := by
    simp [Mark.addedItems]
  have htaken : Mark.takenItems (marks ++ [.cleared]) = Mark.takenItems marks := by
    simp [Mark.takenItems]
  constructor
  case numbered => rw [hadded]; exact h.numbered
  case sorted => exact .nil
  case waits =>
    intro e
    rw [waits_append_iff]
    simp [Ends]
  case served => exact h.served_append nofun
  case ordered => rw [htaken]; exact h.ordered
  case passed =>
    rw [hadded, htaken]
    exact fun e he => ⟨(h.passed e he).1, (h.passed e he).2.1, nofun⟩

/-- Nothing is served twice. -/
theorem nodup (h : History due marks waiting now) : (Mark.takenItems marks).Nodup := by
  refine h.ordered.imp fun hbefore heq => ?_
  unfold Before at hbefore
  grind

/-- What was added and not cleared away still waits or was served. -/
theorem kept (h : History due marks waiting now) {before after : List (Mark (Entry α))}
    {e : Entry α} (heq : marks = before ++ .added e :: after) (hkept : .cleared ∉ after) :
    e ∈ waiting ∨ e ∈ Mark.takenItems after := by
  obtain hends | ⟨earlier, mark, later, rfl, hend, hnot⟩ := forall_not_or_first (Ends due e) after
  · exact .inl ((h.waits e).mpr ⟨before, after, heq, hends⟩)
  · cases mark with
    | added => exact absurd hend id
    | cleared => exact absurd hkept (by simp)
    | served tick taken =>
      have htaken : e ∈ taken := by
        refine (h.served (before ++ .added e :: earlier) tick taken later (by simp [heq]) e).mpr ?_
        exact ⟨⟨before, earlier, rfl, hnot⟩, hend⟩
      exact .inr (List.mem_flatMap.mpr ⟨.served tick taken, by simp, htaken⟩)

end History

end Agenda

end Dryer.Library
