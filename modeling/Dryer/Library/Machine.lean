import Mathlib.Data.List.Basic
import Mathlib.Data.List.Induction

/-!
# State machines with outputs

A machine takes a step on each input and emits outputs. Facts about a run come from facts
about one step, by one induction over the inputs, which is done here.
-/
namespace Dryer.Library

structure Machine (σ ι ο : Type) where
  step : σ → ι → σ × List ο

namespace Machine

variable {σ ι ο : Type} (M : Machine σ ι ο)

/-- The state after a list of inputs, and everything emitted on the way. -/
def run (s : σ) : List ι → σ × List ο
  | [] => (s, [])
  | i :: is =>
    let (t, out) := M.step s i
    let (last, later) := run t is
    (last, out ++ later)

/-- Every step of a run meets a condition on its state and input. -/
def Along (C : σ → ι → Prop) (s : σ) : List ι → Prop
  | [] => True
  | i :: is => C s i ∧ Along C (M.step s i).1 is

instance decidableAlong {C : σ → ι → Prop} [∀ s i, Decidable (C s i)] (s : σ) :
    (is : List ι) → Decidable (M.Along C s is)
  | [] => .isTrue trivial
  | i :: is =>
    have : Decidable (M.Along C (M.step s i).1 is) := decidableAlong (M.step s i).1 is
    inferInstanceAs (Decidable (_ ∧ _))

/-- Every state that a run reaches, the first one included, satisfies a predicate. -/
def Always (P : σ → Prop) (s : σ) : List ι → Prop
  | [] => P s
  | i :: is => P s ∧ Always P (M.step s i).1 is

variable {M} {s : σ}

@[simp] theorem run_nil : M.run s [] = (s, []) := rfl

@[simp] theorem run_cons (i : ι) (is : List ι) :
    M.run s (i :: is) =
      ((M.run (M.step s i).1 is).1, (M.step s i).2 ++ (M.run (M.step s i).1 is).2) := rfl

theorem run_append (is js : List ι) :
    M.run s (is ++ js) =
      ((M.run (M.run s is).1 js).1, (M.run s is).2 ++ (M.run (M.run s is).1 js).2) := by
  induction is generalizing s with
  | nil => rfl
  | cons i is ih => simp [ih]

theorem along_append {C : σ → ι → Prop} (is js : List ι) :
    M.Along C s (is ++ js) ↔ M.Along C s is ∧ M.Along C (M.run s is).1 js := by
  induction is generalizing s with
  | nil => simp [Along]
  | cons i is ih => simp [Along, ih, and_assoc]

/-- A relation between the state and all outputs so far holds after every run whose steps meet
a condition, when such a step preserves it. -/
theorem run_along {P : σ → List ο → Prop} {C : σ → ι → Prop}
    (hstep : ∀ t out i, P t out → C t i → P (M.step t i).1 (out ++ (M.step t i).2))
    {out : List ο} (h : P s out) {is : List ι} (hC : M.Along C s is) :
    P (M.run s is).1 (out ++ (M.run s is).2) := by
  induction is generalizing s out with
  | nil => simpa using h
  | cons i is ih =>
    have hnext := ih (hstep s out i h hC.1) hC.2
    simpa using hnext

/-- What holds of no inputs and is kept by one more input holds of every run and its inputs. -/
theorem run_induction {P : List ι → σ → List ο → Prop} (h : P [] s [])
    (hstep : ∀ is t out i, P is t out → P (is ++ [i]) (M.step t i).1 (out ++ (M.step t i).2))
    (is : List ι) : P is (M.run s is).1 (M.run s is).2 := by
  induction is using List.reverseRecOn with
  | nil => exact h
  | append_singleton is i ih =>
    have hnext := hstep is _ _ i ih
    rw [run_append]
    simpa using hnext

theorem along_of_forall_mem {C : σ → ι → Prop} {is : List ι} (h : ∀ i ∈ is, ∀ t, C t i) :
    M.Along C s is := by
  induction is generalizing s with
  | nil => trivial
  | cons i is ih =>
    rw [List.forall_mem_cons] at h
    exact ⟨h.1 s, ih h.2⟩

theorem along_of_forall {C : σ → ι → Prop} (h : ∀ t i, C t i) (is : List ι) : M.Along C s is :=
  along_of_forall_mem fun i _ t => h t i

theorem run_invariant {P : σ → List ο → Prop}
    (hstep : ∀ t out i, P t out → P (M.step t i).1 (out ++ (M.step t i).2)) (h : P s [])
    (is : List ι) : P (M.run s is).1 (M.run s is).2 := by
  have hrun := run_along (C := fun _ _ => True) (fun t out i hP _ => hstep t out i hP) h
    (along_of_forall (fun _ _ => trivial) is)
  simpa using hrun

theorem along_and {C D : σ → ι → Prop} {is : List ι} (hC : M.Along C s is)
    (hD : M.Along D s is) : M.Along (fun t i => C t i ∧ D t i) s is := by
  induction is generalizing s with
  | nil => trivial
  | cons i is ih => exact ⟨⟨hC.1, hD.1⟩, ih hC.2 hD.2⟩

/-- What an invariant gives of each step, where the steps meet a condition. -/
theorem along_of_invariant {P : σ → Prop} {C D : σ → ι → Prop}
    (hstep : ∀ t i, P t → C t i → D t i ∧ P (M.step t i).1) (h : P s) {is : List ι}
    (hC : M.Along C s is) : M.Along D s is := by
  induction is generalizing s with
  | nil => trivial
  | cons i is ih =>
    obtain ⟨hD, hnext⟩ := hstep s i h hC.1
    exact ⟨hD, ih hnext hC.2⟩

/-- A predicate holds throughout a run exactly when every step meets a condition, when the
condition keeps an invariant behind the predicate and a step outside it breaks the predicate. -/
theorem always_iff_along {P Q : σ → Prop} {A C : σ → ι → Prop} (hQ : ∀ t, P t → Q t)
    (hkeep : ∀ t i, P t → A t i → C t i → P (M.step t i).1)
    (hbreak : ∀ t i, P t → A t i → Q (M.step t i).1 → C t i) (h : P s) {is : List ι}
    (hA : M.Along A s is) : M.Always Q s is ↔ M.Along C s is := by
  induction is generalizing s with
  | nil => exact ⟨fun _ => trivial, fun _ => hQ s h⟩
  | cons i is ih =>
    constructor
    · intro ⟨_, hlater⟩
      have hnext : Q (M.step s i).1 := by
        cases is with
        | nil => exact hlater
        | cons j is => exact hlater.1
      have hC := hbreak s i h hA.1 hnext
      exact ⟨hC, (ih (hkeep s i h hA.1 hC) hA.2).mp hlater⟩
    · intro ⟨hC, hlater⟩
      exact ⟨hQ s h, (ih (hkeep s i h hA.1 hC) hA.2).mpr hlater⟩

/-- A relation between the state and the outputs so far holds throughout a run exactly when
every step meets a condition, when that is so for one step. -/
theorem forall_prefix_iff_along {I : σ → Prop} {P : σ → List ο → Prop} {A C : σ → ι → Prop}
    (hinv : ∀ t i, I t → A t i → I (M.step t i).1)
    (hiff : ∀ t out i, I t → A t i → P t out →
      (P (M.step t i).1 (out ++ (M.step t i).2) ↔ C t i))
    (hI : I s) {out : List ο} (h : P s out) {is : List ι} (hA : M.Along A s is) :
    (∀ js, js <+: is → P (M.run s js).1 (out ++ (M.run s js).2)) ↔ M.Along C s is := by
  induction is generalizing s out with
  | nil =>
    refine ⟨fun _ => trivial, fun _ js hjs => ?_⟩
    rw [List.prefix_nil.mp hjs]
    simpa using h
  | cons i is ih =>
    constructor
    · intro hall
      have hnext := hall [i] (List.prefix_append [i] is)
      simp only [run_cons, run_nil, List.append_nil] at hnext
      refine ⟨(hiff s out i hI hA.1 h).mp hnext, (ih (hinv s i hI hA.1) hnext hA.2).mp ?_⟩
      intro js hjs
      simpa using hall (i :: js) (List.cons_prefix_cons.mpr ⟨rfl, hjs⟩)
    · intro hC js hjs
      obtain rfl | ⟨later, rfl, hlater⟩ := List.prefix_cons_iff.mp hjs
      · simpa using h
      · have hnext := (hiff s out i hI hA.1 h).mpr hC.1
        simpa using (ih (hinv s i hI hA.1) hnext hA.2).mpr hC.2 later hlater

/-- A property of the outputs that is kept by prefixes holds after a run exactly when every step
meets a condition, when that is so for one step. -/
theorem output_iff_along {I : σ → List ο → Prop} {Q : List ο → Prop} {A C : σ → ι → Prop}
    (hinv : ∀ t out i, I t out → A t i → I (M.step t i).1 (out ++ (M.step t i).2))
    (hiff : ∀ t out i, I t out → A t i → Q out → (Q (out ++ (M.step t i).2) ↔ C t i))
    (hearlier : ∀ out later, Q (out ++ later) → Q out) {out : List ο} (hI : I s out)
    (hQ : Q out) {is : List ι} (hA : M.Along A s is) :
    Q (out ++ (M.run s is).2) ↔ M.Along C s is := by
  induction is generalizing s out with
  | nil => exact iff_of_true (by simpa using hQ) trivial
  | cons i is ih =>
    have hnow := hiff s out i hI hA.1 hQ
    rw [run_cons, ← List.append_assoc]
    constructor
    · intro hlater
      have hnext := hearlier _ _ hlater
      exact ⟨hnow.mp hnext, (ih (hinv s out i hI hA.1) hnext hA.2).mp hlater⟩
    · intro hC
      exact (ih (hinv s out i hI hA.1) (hnow.mpr hC.1) hA.2).mpr hC.2

/-- All outputs of a run satisfy a predicate exactly when every step meets a condition, when that
is so for one step. -/
theorem forall_output_iff_along {I : σ → Prop} {P : ο → Prop} {A C : σ → ι → Prop}
    (hinv : ∀ t i, I t → A t i → I (M.step t i).1)
    (hiff : ∀ t i, I t → A t i → ((∀ o ∈ (M.step t i).2, P o) ↔ C t i)) (hI : I s)
    {is : List ι} (hA : M.Along A s is) :
    (∀ o ∈ (M.run s is).2, P o) ↔ M.Along C s is := by
  induction is generalizing s with
  | nil => exact iff_of_true nofun trivial
  | cons i is ih =>
    rw [run_cons, List.forall_mem_append, hiff s i hI hA.1, ih (hinv s i hI hA.1) hA.2]
    rfl

/-- Two readings of the outputs agree over a run exactly when they agree at every step, when
the first never has more than the second. -/
theorem flatMap_run_eq_iff_along {γ : Type} {f g : ο → List γ} {A C : σ → ι → Prop}
    (hagree : ∀ t i, A t i → C t i → (M.step t i).2.flatMap f = (M.step t i).2.flatMap g)
    (hless : ∀ t i, A t i → ¬ C t i →
      ((M.step t i).2.flatMap f).length < ((M.step t i).2.flatMap g).length)
    {is : List ι} (hA : M.Along A s is) :
    ((M.run s is).2.flatMap f).length ≤ ((M.run s is).2.flatMap g).length ∧
      ((M.run s is).2.flatMap f = (M.run s is).2.flatMap g ↔ M.Along C s is) := by
  induction is generalizing s with
  | nil => simp [Along]
  | cons i is ih =>
    obtain ⟨hle, hiff⟩ := ih hA.2
    simp only [run_cons, List.flatMap_append, Along]
    by_cases hC : C s i
    · rw [hagree s i hA.1 hC, List.append_cancel_left_eq, List.length_append, List.length_append]
      exact ⟨Nat.add_le_add_left hle _, by rw [hiff]; exact (and_iff_right hC).symm⟩
    · have hlt := hless s i hA.1 hC
      have hne : ((M.step s i).2.flatMap f ++ (M.run (M.step s i).1 is).2.flatMap f).length ≠
          ((M.step s i).2.flatMap g ++ (M.run (M.step s i).1 is).2.flatMap g).length := by
        simp only [List.length_append]
        omega
      refine ⟨by simp only [List.length_append]; omega, fun heq => absurd (congrArg _ heq) hne, ?_⟩
      exact fun h => absurd h.1 hC

theorem flatMap_run_eq_iff {γ : Type} {f g : ο → List γ} {C : σ → ι → Prop}
    (hagree : ∀ t i, C t i → (M.step t i).2.flatMap f = (M.step t i).2.flatMap g)
    (hless : ∀ t i, ¬ C t i →
      ((M.step t i).2.flatMap f).length < ((M.step t i).2.flatMap g).length)
    (is : List ι) :
    ((M.run s is).2.flatMap f).length ≤ ((M.run s is).2.flatMap g).length ∧
      ((M.run s is).2.flatMap f = (M.run s is).2.flatMap g ↔ M.Along C s is) :=
  flatMap_run_eq_iff_along (fun t i _ => hagree t i) (fun t i _ => hless t i)
    (along_of_forall (fun _ _ => trivial) is)

variable (M) in
/-- The machine beside a history variable, which no step looks at. -/
def withHistory {η : Type} (update : σ → ι → η → η) : Machine (σ × η) ι ο where
  step s i := (((M.step s.1 i).1, update s.1 i s.2), (M.step s.1 i).2)

theorem run_withHistory {η : Type} (update : σ → ι → η → η) (history : η) (is : List ι) :
    ((M.withHistory update).run (s, history) is).1.1 = (M.run s is).1 ∧
      ((M.withHistory update).run (s, history) is).2 = (M.run s is).2 := by
  induction is generalizing s history with
  | nil => exact ⟨rfl, rfl⟩
  | cons i is ih =>
    obtain ⟨hstate, hout⟩ := ih (s := (M.step s i).1) (update s i history)
    exact ⟨hstate, congrArg _ hout⟩

end Machine

end Dryer.Library
