import Mathlib.Data.List.Basic
import Mathlib.Data.List.Induction

/-!
# Passes that report

A pass over a list goes on after an error: an element that fails leaves the state as it was, and
its error comes into the report. Without a report, every element took its step.
-/
namespace Dryer.Library

variable {σ α ε : Type}

/-- The state after all elements, and the errors of those that failed. -/
def pass (step : σ → α → Except ε σ) : σ → List α → σ × List ε
  | s, [] => (s, [])
  | s, a :: as =>
    match step s a with
    | .ok next => pass step next as
    | .error e => ((pass step s as).1, e :: (pass step s as).2)

variable {step : σ → α → Except ε σ}

/-- What the steps of the elements keep holds after a pass, where the elements that came before
are known. -/
theorem pass_induction {P : List α → σ → Prop} {s : σ} {as : List α}
    (hstep : ∀ before a s next, P before s → step s a = .ok next → P (before ++ [a]) next)
    (hstart : P [] s) (hreport : (pass step s as).2 = []) : P as (pass step s as).1 := by
  have hfrom (later before : List α) (s : σ) (hbefore : P before s)
      (hreport : (pass step s later).2 = []) : P (before ++ later) (pass step s later).1 := by
    induction later generalizing before s with
    | nil => simpa [pass] using hbefore
    | cons a as ih =>
      unfold pass at hreport ⊢
      split
      · rename_i next hnext
        rw [hnext] at hreport
        have hrest := ih (before ++ [a]) next (hstep before a s next hbefore hnext) hreport
        rwa [List.append_assoc] at hrest
      · rename_i e herror
        rw [herror] at hreport
        cases hreport
  exact hfrom as [] s hstart hreport

/-- The errors of a pass are those of its steps. -/
theorem pass_reports {Q : ε → Prop} {s : σ} (as : List α)
    (hstep : ∀ a s e, step s a = .error e → Q e) : ∀ e ∈ (pass step s as).2, Q e := by
  induction as generalizing s with
  | nil => simp [pass]
  | cons a as ih =>
    unfold pass
    split
    · exact ih
    · rename_i e herror
      exact List.forall_mem_cons.mpr ⟨hstep a s e herror, ih⟩

/-- What every step keeps holds after a pass, with and without errors. -/
theorem pass_invariant {P : σ → Prop} {s : σ} (as : List α)
    (hstep : ∀ a s next, P s → step s a = .ok next → P next) (hstart : P s) :
    P (pass step s as).1 := by
  induction as generalizing s with
  | nil => exact hstart
  | cons a as ih =>
    unfold pass
    split
    · rename_i next hnext
      exact ih (hstep a s next hstart hnext)
    · exact ih hstart

/-- A fold that ends clean was clean all the way, and keeps what its clean steps keep. -/
theorem foldl_induction_of_clean {f : σ → α → σ} {clean : σ → Prop} {P : List α → σ → Prop}
    {s : σ} {as : List α} (hback : ∀ s a, clean (f s a) → clean s)
    (hstep : ∀ before a s, P before s → clean (f s a) → P (before ++ [a]) (f s a))
    (hstart : P [] s) (hclean : clean (as.foldl f s)) : P as (as.foldl f s) := by
  induction as using List.reverseRecOn with
  | nil => exact hstart
  | append_singleton as a ih =>
    rw [List.foldl_append, List.foldl_cons, List.foldl_nil] at hclean ⊢
    exact hstep as a _ (ih (hback _ _ hclean)) hclean

end Dryer.Library
