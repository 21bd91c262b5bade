import Mathlib.Data.List.Basic
import Mathlib.Data.List.Infix

/-!
# Delimiting words in a stream

A delimiter looks at the front of a buffer and waits for more, gives up on the first
symbol, or accepts a word. When neither of the last two is ever revised once more symbols
arrive, the words found in a stream do not depend on how it was cut into chunks. They lie
in the stream in order and apart from each other, and a word that is missed was overlapped
by one that was found before it.
-/
namespace Dryer.Library

inductive Verdict where
  | wait
  | skip
  | accept (length : Nat)
  deriving DecidableEq

structure Delimiter (β : Type) where
  verdict : List β → Verdict
  wait_nil : verdict [] = .wait
  accept_bounds : ∀ {xs n}, verdict xs = .accept n → 0 < n ∧ n ≤ xs.length
  /-- A word is accepted for its own symbols. -/
  accept_take : ∀ {xs n}, verdict xs = .accept n → verdict (xs.take n) = .accept n
  /-- A decision stands when more symbols arrive. -/
  stable : ∀ {xs} ys, verdict xs ≠ .wait → verdict (xs ++ ys) = verdict xs
  /-- Every buffer this long is decided. -/
  lookahead : Nat
  length_of_wait : ∀ {xs}, verdict xs = .wait → xs.length < lookahead

namespace Delimiter

variable {β : Type} (D : Delimiter β)

theorem ne_nil_of_skip {D : Delimiter β} {xs : List β} (h : D.verdict xs = .skip) : xs ≠ [] := by
  intro hnil
  rw [hnil, D.wait_nil] at h
  cases h

/-- The words of a stream, and what is left when the delimiter waits. -/
def scan (xs : List β) : List (List β) × List β :=
  match _h : D.verdict xs with
  | .wait => ([], xs)
  | .skip => scan (xs.drop 1)
  | .accept n =>
    let (words, rest) := scan (xs.drop n)
    (xs.take n :: words, rest)
termination_by xs.length
decreasing_by
  · have := List.length_pos_iff.mpr (ne_nil_of_skip _h)
    simp
    omega
  · have := D.accept_bounds _h
    simp
    omega

/-- The next word of a buffer, and the buffer afterwards. -/
def next (xs : List β) : Option (List β) × List β :=
  match _h : D.verdict xs with
  | .wait => (none, xs)
  | .skip => next (xs.drop 1)
  | .accept n => (some (xs.take n), xs.drop n)
termination_by xs.length
decreasing_by
  have := List.length_pos_iff.mpr (ne_nil_of_skip _h)
  simp
  omega

variable {D} {xs : List β}

theorem scan_of_wait (h : D.verdict xs = .wait) : D.scan xs = ([], xs) := by
  unfold scan
  split <;> simp_all

theorem scan_of_skip (h : D.verdict xs = .skip) : D.scan xs = D.scan (xs.drop 1) := by
  rw [scan]
  split <;> simp_all

theorem scan_of_accept {n : Nat} (h : D.verdict xs = .accept n) :
    D.scan xs = (xs.take n :: (D.scan (xs.drop n)).1, (D.scan (xs.drop n)).2) := by
  rw [scan]
  split <;> simp_all

theorem next_of_wait (h : D.verdict xs = .wait) : D.next xs = (none, xs) := by
  unfold next
  split <;> simp_all

theorem next_of_skip (h : D.verdict xs = .skip) : D.next xs = D.next (xs.drop 1) := by
  rw [next]
  split <;> simp_all

theorem next_of_accept {n : Nat} (h : D.verdict xs = .accept n) :
    D.next xs = (some (xs.take n), xs.drop n) := by
  unfold next
  split <;> simp_all

/-! ## Chunks -/

/-- Scanning can stop anywhere and go on from what was left. -/
theorem scan_append (xs ys : List β) :
    D.scan (xs ++ ys) = ((D.scan xs).1 ++ (D.scan ((D.scan xs).2 ++ ys)).1,
      (D.scan ((D.scan xs).2 ++ ys)).2) := by
  induction xs using scan.induct D with
  | case1 xs hwait => simp [scan_of_wait hwait]
  | case2 xs hskip ih =>
    have hpos := List.length_pos_iff.mpr (ne_nil_of_skip hskip)
    have hskip' : D.verdict (xs ++ ys) = .skip := by
      rw [D.stable ys (by simp [hskip]), hskip]
    rw [scan_of_skip hskip', scan_of_skip hskip, List.drop_append_of_le_length (by omega), ih]
  | case3 xs n haccept words rest hrest ih =>
    have hbounds := D.accept_bounds haccept
    have haccept' : D.verdict (xs ++ ys) = .accept n := by
      rw [D.stable ys (by simp [haccept]), haccept]
    rw [scan_of_accept haccept', scan_of_accept haccept,
      List.drop_append_of_le_length hbounds.2, List.take_append_of_le_length hbounds.2, ih]
    simp

/-- The scan of a front part of some words finds the first of them, and leaves what the others
begin with. -/
theorem scan_of_words {words : List (List β)}
    (hwords : ∀ word ∈ words, D.verdict word = .accept word.length) {rest : List β}
    (h : xs ++ rest = words.flatten) :
    ∃ later, words = (D.scan xs).1 ++ later ∧ (D.scan xs).2 ++ rest = later.flatten := by
  induction words generalizing xs with
  | nil =>
    rw [List.flatten_nil, List.append_eq_nil_iff] at h
    obtain ⟨rfl, rfl⟩ := h
    rw [scan_of_wait D.wait_nil]
    exact ⟨[], rfl, rfl⟩
  | cons word words ih =>
    rw [List.forall_mem_cons] at hwords
    by_cases hwait : D.verdict xs = .wait
    · rw [scan_of_wait hwait]
      exact ⟨word :: words, rfl, h⟩
    have haccept : D.verdict xs = .accept word.length := by
      rw [← D.stable rest hwait, h, List.flatten_cons,
        D.stable words.flatten (by rw [hwords.1]; nofun), hwords.1]
    have hlength := (D.accept_bounds haccept).2
    have hword : xs.take word.length = word := by
      rw [← List.take_append_of_le_length hlength, h, List.flatten_cons, List.take_left]
    have hrest : xs.drop word.length ++ rest = words.flatten := by
      rw [← List.drop_append_of_le_length hlength, h, List.flatten_cons, List.drop_left]
    obtain ⟨later, hlater, hleft⟩ := ih hwords.2 hrest
    rw [scan_of_accept haccept, hword]
    exact ⟨later, congrArg (word :: ·) hlater, hleft⟩

/-- Whole words in front of a waiting delimiter are no words at all. -/
theorem eq_nil_of_wait {words : List (List β)}
    (hwords : ∀ word ∈ words, D.verdict word = .accept word.length)
    (h : D.verdict words.flatten = .wait) : words = [] := by
  cases words with
  | nil => rfl
  | cons word words =>
    rw [List.forall_mem_cons] at hwords
    rw [List.flatten_cons, D.stable _ (by rw [hwords.1]; nofun), hwords.1] at h
    cases h

/-- A scan stops where the delimiter waits. -/
theorem verdict_scan (xs : List β) : D.verdict (D.scan xs).2 = .wait := by
  induction xs using scan.induct D with
  | case1 xs hwait => rwa [scan_of_wait hwait]
  | case2 xs hskip ih => rwa [scan_of_skip hskip]
  | case3 xs n haccept words rest hrest ih => rwa [scan_of_accept haccept]

theorem scan_of_next_some {word rest : List β} (h : D.next xs = (some word, rest)) :
    D.scan xs = (word :: (D.scan rest).1, (D.scan rest).2) := by
  induction xs using next.induct D with
  | case1 xs hwait =>
    rw [next_of_wait hwait] at h
    cases h
  | case2 xs hskip ih =>
    rw [next_of_skip hskip] at h
    rw [scan_of_skip hskip, ih h]
  | case3 xs n haccept =>
    rw [next_of_accept haccept] at h
    cases h
    exact scan_of_accept haccept

theorem scan_of_next_none {rest : List β} (h : D.next xs = (none, rest)) :
    D.scan xs = ([], rest) ∧ D.verdict rest = .wait := by
  induction xs using next.induct D with
  | case1 xs hwait =>
    rw [next_of_wait hwait] at h
    cases h
    exact ⟨scan_of_wait hwait, hwait⟩
  | case2 xs hskip ih =>
    rw [next_of_skip hskip] at h
    rw [scan_of_skip hskip]
    exact ih h
  | case3 xs n haccept =>
    rw [next_of_accept haccept] at h
    cases h

/-- The next word is a word, and it comes out of the buffer. -/
theorem verdict_of_next_some {word rest : List β} (h : D.next xs = (some word, rest)) :
    D.verdict word = .accept word.length ∧ word.length + rest.length ≤ xs.length := by
  induction xs using next.induct D with
  | case1 xs hwait =>
    rw [next_of_wait hwait] at h
    cases h
  | case2 xs hskip ih =>
    rw [next_of_skip hskip] at h
    have hrest := ih h
    rw [List.length_drop] at hrest
    exact ⟨hrest.1, by omega⟩
  | case3 xs n haccept =>
    have hbounds := D.accept_bounds haccept
    rw [next_of_accept haccept] at h
    cases h
    rw [List.length_take_of_le hbounds.2, List.length_drop]
    exact ⟨D.accept_take haccept, by omega⟩

theorem length_of_next_some {word rest : List β} (h : D.next xs = (some word, rest)) :
    rest.length < xs.length := by
  obtain ⟨hword, hlength⟩ := verdict_of_next_some h
  have hpos := (D.accept_bounds hword).1
  omega

variable (D) in
/-- The words already taken from a stream and the buffer still to be scanned account for
the whole of it, whatever order the stream was fed and the words were taken in. -/
def Emitted (stream : List β) (words : List (List β)) (buffer : List β) : Prop :=
  D.scan stream = (words ++ (D.scan buffer).1, (D.scan buffer).2)

namespace Emitted

variable {stream buffer rest : List β} {words : List (List β)}

theorem nil : D.Emitted [] [] [] := by
  simp [Emitted]

theorem feed (h : D.Emitted stream words buffer) (ys : List β) :
    D.Emitted (stream ++ ys) words (buffer ++ ys) := by
  unfold Emitted at h ⊢
  rw [scan_append stream, scan_append buffer, h]
  simp

theorem next_some {word : List β} (h : D.Emitted stream words buffer)
    (hnext : D.next buffer = (some word, rest)) : D.Emitted stream (words ++ [word]) rest := by
  unfold Emitted at h ⊢
  rw [h, scan_of_next_some hnext]
  simp

theorem next_none (h : D.Emitted stream words buffer) (hnext : D.next buffer = (none, rest)) :
    D.Emitted stream words rest := by
  obtain ⟨hscan, hwait⟩ := scan_of_next_none hnext
  unfold Emitted at h ⊢
  rw [h, hscan, scan_of_wait hwait]

theorem scan (h : D.Emitted stream words buffer) :
    D.Emitted stream (words ++ (D.scan buffer).1) (D.scan buffer).2 := by
  unfold Emitted at h ⊢
  rw [scan_of_wait (verdict_scan buffer), List.append_nil]
  exact h

/-- Once the delimiter waits, the words are those of the stream. -/
theorem scan_eq (h : D.Emitted stream words buffer) (hwait : D.verdict buffer = .wait) :
    D.scan stream = (words, buffer) := by
  rw [h, scan_of_wait hwait, List.append_nil]

end Emitted

/-! ## Places -/

/-- A word moved `n` symbols down the stream. -/
def shift (n : Nat) (placed : Nat × List β) : Nat × List β := (n + placed.1, placed.2)

variable (D) in
/-- The words of a stream with the places they start at. -/
def placements (xs : List β) : List (Nat × List β) :=
  match _h : D.verdict xs with
  | .wait => []
  | .skip => (placements (xs.drop 1)).map (shift 1)
  | .accept n => (0, xs.take n) :: (placements (xs.drop n)).map (shift n)
termination_by xs.length
decreasing_by
  · have := List.length_pos_iff.mpr (ne_nil_of_skip _h)
    simp
    omega
  · have := D.accept_bounds _h
    simp
    omega

theorem placements_of_wait (h : D.verdict xs = .wait) : D.placements xs = [] := by
  unfold placements
  split <;> simp_all

theorem placements_of_skip (h : D.verdict xs = .skip) :
    D.placements xs = (D.placements (xs.drop 1)).map (shift 1) := by
  rw [placements]
  split <;> simp_all

theorem placements_of_accept {n : Nat} (h : D.verdict xs = .accept n) :
    D.placements xs = (0, xs.take n) :: (D.placements (xs.drop n)).map (shift n) := by
  rw [placements]
  split <;> simp_all

variable (D) in
/-- Words of the delimiter that lie in the stream, in order and apart, such that any other
word of the stream, far enough from its end, is overlapped by an earlier one of them. -/
structure Resynchronizes (stream : List β) (placed : List (Nat × List β)) : Prop where
  word : ∀ p ∈ placed, D.verdict p.2 = .accept p.2.length
  substring : ∀ p ∈ placed, p.2 <+: stream.drop p.1
  ordered : placed.Pairwise fun p q => p.1 + p.2.length ≤ q.1
  lossless : ∀ i word, D.verdict word = .accept word.length → word <+: stream.drop i →
    i + D.lookahead ≤ stream.length →
    (i, word) ∈ placed ∨ ∃ p ∈ placed, p.1 < i ∧ i < p.1 + p.2.length

namespace Resynchronizes

variable {placed : List (Nat × List β)}

theorem nil (h : D.verdict xs = .wait) : D.Resynchronizes xs [] where
  word := by simp
  substring := by simp
  ordered := List.Pairwise.nil
  lossless := by
    intro i word _ _ hroom
    have := D.length_of_wait h
    omega

/-- A word at the front of the stream is the delimiter's decision there. -/
theorem verdict_of_prefix {word : List β} (hword : D.verdict word = .accept word.length)
    (hstart : word <+: xs) : D.verdict xs = .accept word.length := by
  obtain ⟨tail, rfl⟩ := hstart
  rw [D.stable tail (by simp [hword]), hword]

/-- What holds behind the first `n` symbols, seen from the front. -/
theorem lossless_shift {n : Nat} (hrest : D.Resynchronizes (xs.drop n) placed)
    (hn : n ≤ xs.length) {i : Nat} (hi : n ≤ i) {word : List β}
    (hword : D.verdict word = .accept word.length) (hstart : word <+: xs.drop i)
    (hroom : i + D.lookahead ≤ xs.length) :
    (i, word) ∈ placed.map (shift n) ∨
      ∃ p ∈ placed.map (shift n), p.1 < i ∧ i < p.1 + p.2.length := by
  obtain ⟨k, rfl⟩ := Nat.exists_eq_add_of_le hi
  rw [← List.drop_drop] at hstart
  rcases hrest.lossless k word hword hstart (by rw [List.length_drop]; omega) with hmem | hmem
  · exact Or.inl (List.mem_map.mpr ⟨(k, word), hmem, rfl⟩)
  · obtain ⟨p, hp, hbefore, hafter⟩ := hmem
    refine Or.inr ⟨shift n p, List.mem_map_of_mem hp, ?_, ?_⟩
    · simp only [shift]
      omega
    · simp only [shift]
      omega

theorem ordered_shift (n : Nat)
    (h : placed.Pairwise fun p q => p.1 + p.2.length ≤ q.1) :
    (placed.map (shift n)).Pairwise fun p q => p.1 + p.2.length ≤ q.1 := by
  refine List.pairwise_map.mpr (h.imp ?_)
  intro p q hpq
  simp only [shift]
  omega

theorem substring_shift {n : Nat} (h : ∀ p ∈ placed, p.2 <+: (xs.drop n).drop p.1) :
    ∀ p ∈ placed.map (shift n), p.2 <+: xs.drop p.1 := by
  refine List.forall_mem_map.mpr fun p hp => ?_
  have hsub := h p hp
  rwa [List.drop_drop] at hsub

theorem skip (h : D.verdict xs = .skip) (hrest : D.Resynchronizes (xs.drop 1) placed) :
    D.Resynchronizes xs (placed.map (shift 1)) where
  word := List.forall_mem_map.mpr hrest.word
  substring := substring_shift hrest.substring
  ordered := ordered_shift 1 hrest.ordered
  lossless := by
    intro i word hword hstart hroom
    by_cases hi : i = 0
    · subst hi
      rw [List.drop_zero] at hstart
      have haccept := verdict_of_prefix hword hstart
      rw [h] at haccept
      cases haccept
    · have hpos := List.length_pos_iff.mpr (ne_nil_of_skip h)
      exact hrest.lossless_shift hpos (Nat.pos_of_ne_zero hi) hword hstart hroom

theorem accept {n : Nat} (h : D.verdict xs = .accept n)
    (hrest : D.Resynchronizes (xs.drop n) placed) :
    D.Resynchronizes xs ((0, xs.take n) :: placed.map (shift n)) := by
  have hbounds := D.accept_bounds h
  have hlength : (xs.take n).length = n := List.length_take_of_le hbounds.2
  refine ⟨?_, ?_, ?_, ?_⟩
  · refine List.forall_mem_cons.mpr ⟨?_, List.forall_mem_map.mpr hrest.word⟩
    rw [hlength, D.accept_take h]
  · exact List.forall_mem_cons.mpr ⟨List.take_prefix n xs, substring_shift hrest.substring⟩
  · refine List.pairwise_cons.mpr ⟨?_, ordered_shift n hrest.ordered⟩
    refine List.forall_mem_map.mpr fun p hp => ?_
    simp only [shift, hlength]
    omega
  · intro i word hword hstart hroom
    by_cases hzero : i = 0
    · subst hzero
      rw [List.drop_zero] at hstart
      have haccept := verdict_of_prefix hword hstart
      rw [h] at haccept
      have hn : n = word.length := by injection haccept
      left
      rw [hn, ← List.prefix_iff_eq_take.mp hstart]
      exact List.mem_cons_self
    by_cases hinside : i < n
    · right
      refine ⟨(0, xs.take n), List.mem_cons_self, Nat.pos_of_ne_zero hzero, ?_⟩
      rwa [hlength, Nat.zero_add]
    · rcases hrest.lossless_shift hbounds.2 (Nat.not_lt.mp hinside) hword hstart hroom with
        hmem | ⟨p, hp, hoverlap⟩
      · exact Or.inl (List.mem_cons_of_mem _ hmem)
      · exact Or.inr ⟨p, List.mem_cons_of_mem _ hp, hoverlap⟩

end Resynchronizes

theorem resynchronizes (xs : List β) : D.Resynchronizes xs (D.placements xs) := by
  induction xs using placements.induct D with
  | case1 xs hwait =>
    rw [placements_of_wait hwait]
    exact Resynchronizes.nil hwait
  | case2 xs hskip ih =>
    rw [placements_of_skip hskip]
    exact ih.skip hskip
  | case3 xs n haccept ih =>
    rw [placements_of_accept haccept]
    exact ih.accept haccept

theorem map_snd_shift (n : Nat) (placed : List (Nat × List β)) :
    (placed.map (shift n)).map Prod.snd = placed.map Prod.snd := by
  simp [shift, Function.comp_def]

theorem words_placements (xs : List β) : (D.placements xs).map Prod.snd = (D.scan xs).1 := by
  induction xs using placements.induct D with
  | case1 xs hwait => rw [placements_of_wait hwait, scan_of_wait hwait, List.map_nil]
  | case2 xs hskip ih =>
    rw [placements_of_skip hskip, scan_of_skip hskip, map_snd_shift, ih]
  | case3 xs n haccept ih =>
    rw [placements_of_accept haccept, scan_of_accept haccept, List.map_cons, map_snd_shift, ih]

end Delimiter

end Dryer.Library
