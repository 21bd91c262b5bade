import Mathlib.Data.List.Basic

/-!
# Prefix-free words

Words that end by themselves: behind one of them nothing can be taken for more of it. Such words
follow one another without a separator, and a sequence of them can be read in one way only.
-/
namespace Dryer.Library

variable {α β γ : Type}

/-- Where the words of two values begin the same input, the values are the same. -/
def PrefixFree (fits : α → Prop) (word : α → List β) : Prop :=
  ∀ ⦃a b : α⦄ ⦃rest rest' : List β⦄, fits a → fits b → word a ++ rest = word b ++ rest' → a = b

namespace PrefixFree

variable {fits : α → Prop} {word : α → List β}

/-- The rest of the input is the same, too. -/
theorem rest_eq (h : PrefixFree fits word) {a b : α} {rest rest' : List β} (ha : fits a)
    (hb : fits b) (heq : word a ++ rest = word b ++ rest') : a = b ∧ rest = rest' := by
  obtain rfl := h ha hb heq
  exact ⟨rfl, List.append_cancel_left heq⟩

/-- Words of one length. -/
theorem of_length {n : ℕ} (hlength : ∀ a, (word a).length = n)
    (hword : ∀ a b, fits a → fits b → word a = word b → a = b) : PrefixFree fits word := by
  intro a b rest rest' ha hb heq
  have hsame : (word a).length = (word b).length := by rw [hlength, hlength]
  exact hword a b ha hb (List.append_inj_left heq hsame)

/-- A value that is told by its image. -/
theorem comp (h : PrefixFree fits word) {f : γ → α} (hf : Function.Injective f) :
    PrefixFree (fun c => fits (f c)) fun c => word (f c) := by
  intro c d rest rest' hc hd heq
  exact hf (h hc hd heq)

/-- Two words one after the other. -/
theorem prod {fits' : γ → Prop} {word' : γ → List β} (h : PrefixFree fits word)
    (h' : PrefixFree fits' word') :
    PrefixFree (fun p : α × γ => fits p.1 ∧ fits' p.2) fun p => word p.1 ++ word' p.2 := by
  rintro ⟨a, c⟩ ⟨b, d⟩ rest rest' ⟨ha, hc⟩ ⟨hb, hd⟩ heq
  simp only [List.append_assoc] at heq
  obtain ⟨hab, hrest⟩ := h.rest_eq ha hb heq
  exact Prod.ext hab (h' hc hd hrest)

/-- A list behind its length. -/
theorem lengthPrefixed {fits : ℕ → Prop} {length : ℕ → List β} (h : PrefixFree fits length) :
    PrefixFree (fun l : List β => fits l.length) fun l => length l.length ++ l := by
  intro l l' rest rest' hl hl' heq
  simp only [List.append_assoc] at heq
  obtain ⟨hlength, hlists⟩ := h.rest_eq hl hl' heq
  exact List.append_inj_left hlists hlength

/-- A sequence of words that are not empty is read in one way. -/
theorem flatMap_injective (h : PrefixFree fits word) (hsome : ∀ a, word a ≠ []) {as bs : List α}
    (has : ∀ a ∈ as, fits a) (hbs : ∀ b ∈ bs, fits b) (heq : as.flatMap word = bs.flatMap word) :
    as = bs := by
  induction as generalizing bs with
  | nil =>
    cases bs with
    | nil => rfl
    | cons b bs => exact absurd (List.append_eq_nil_iff.mp heq.symm).1 (hsome b)
  | cons a as ih =>
    cases bs with
    | nil => exact absurd (List.append_eq_nil_iff.mp heq).1 (hsome a)
    | cons b bs =>
      obtain ⟨ha, has⟩ := List.forall_mem_cons.mp has
      obtain ⟨hb, hbs⟩ := List.forall_mem_cons.mp hbs
      simp only [List.flatMap_cons] at heq
      obtain ⟨hab, hrest⟩ := h.rest_eq ha hb heq
      rw [hab, ih has hbs hrest]

end PrefixFree

end Dryer.Library
