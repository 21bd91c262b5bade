import Mathlib.Data.List.Basic
import Mathlib.Data.List.TakeWhile

/-!
# Text

Strings by the lists of their characters: white space, prefixes, and the parts between separators.
-/
namespace Dryer.Library

/-- The white space of Unicode. -/
def isWhitespace (c : Char) : Bool :=
  (0x9 ≤ c.toNat && c.toNat ≤ 0xd) || (0x2000 ≤ c.toNat && c.toNat ≤ 0x200a) ||
    c.toNat ∈ [0x20, 0x85, 0xa0, 0x1680, 0x2028, 0x2029, 0x202f, 0x205f, 0x3000]

/-- Without the white space at both ends. -/
def trim (s : String) : String :=
  String.ofList ((s.toList.dropWhile isWhitespace).reverse.dropWhile isWhitespace).reverse

/-- The characters before the first white space, after that at the start. -/
def firstWord (s : String) : Option String :=
  match (s.toList.dropWhile isWhitespace).takeWhile fun c => !isWhitespace c with
  | [] => none
  | word => some (String.ofList word)

/-- The parts between white space. -/
def words (s : String) : List String :=
  ((s.toList.splitOnP isWhitespace).filter (· ≠ [])).map String.ofList

/-- The parts that line feeds end, without a carriage return at their end, and then a part that none
ends, as it is. -/
def lines (s : String) : List String :=
  let parts := s.toList.splitOn '\n'
  let ended := parts.dropLast.map fun part =>
    if part.getLast? = some '\r' then part.dropLast else part
  (ended ++ (parts.getLast?.filter (· ≠ [])).toList).map String.ofList

def startsWith (s pattern : String) : Bool := pattern.toList.isPrefixOf s.toList

def endsWith (s pattern : String) : Bool := pattern.toList.isSuffixOf s.toList

def stripPrefix (s pattern : String) : Option String :=
  (pattern.toList.isPrefixOf? s.toList).map String.ofList

/-- The characters before the first separator, all of them where there is none. -/
def firstSegment (s : String) (separator : Char) : String :=
  String.ofList (s.toList.takeWhile (· != separator))

/-- The parts before and after the first occurrence of a pattern. -/
def cutAt (pattern : List Char) : List Char → Option (List Char × List Char)
  | [] => if pattern.isEmpty then some ([], []) else none
  | c :: rest =>
    match pattern.isPrefixOf? (c :: rest) with
    | some after => some ([], after)
    | none => (cutAt pattern rest).map fun (before, after) => (c :: before, after)

/-- The visible characters of ASCII are no white space. -/
theorem isWhitespace_eq_false {c : Char} (hfirst : 0x20 < c.toNat) (hlast : c.toNat < 0x7f) :
    isWhitespace c = false := by
  simp only [isWhitespace, Bool.or_eq_false_iff, Bool.and_eq_false_iff, decide_eq_false_iff_not,
    List.mem_cons, List.not_mem_nil, or_false]
  omega

theorem trim_eq_self {s : String} (hfirst : ∀ c ∈ s.toList.head?, isWhitespace c = false)
    (hlast : ∀ c ∈ s.toList.getLast?, isWhitespace c = false) : trim s = s := by
  have hkeep {l : List Char} (h : ∀ c ∈ l.head?, isWhitespace c = false) :
      l.dropWhile isWhitespace = l := by
    cases l with
    | nil => rfl
    | cons c l => simp [h c rfl]
  have hend : s.toList.reverse.dropWhile isWhitespace = s.toList.reverse :=
    hkeep (by simpa using hlast)
  rw [trim, hkeep hfirst, hend, List.reverse_reverse, String.ofList_toList]

theorem firstWord_eq_some {s : String} {word rest : List Char} (hs : s.toList = word ++ ' ' :: rest)
    (hsome : word ≠ []) (hplain : word.any isWhitespace = false) :
    firstWord s = some (String.ofList word) := by
  rw [List.any_eq_false] at hplain
  have hdrop : s.toList.dropWhile isWhitespace = s.toList := by
    obtain ⟨c, word, rfl⟩ := List.exists_cons_of_ne_nil hsome
    rw [hs, List.cons_append, List.dropWhile_cons_of_neg]
    simp [hplain c List.mem_cons_self]
  have htake : s.toList.takeWhile (fun c => !isWhitespace c) = word := by
    rw [hs, List.takeWhile_append_of_pos (by simpa using hplain)]
    simp [show isWhitespace ' ' = true from rfl]
  unfold firstWord
  rw [hdrop, htake]
  split
  · exact absurd rfl hsome
  · rfl

theorem cutAt_eq_some {pattern s before after : List Char}
    (h : cutAt pattern s = some (before, after)) : s = before ++ (pattern ++ after) := by
  induction s generalizing before with
  | nil =>
    unfold cutAt at h
    split at h
    · rename_i hempty
      obtain ⟨rfl, rfl⟩ := Prod.mk.inj (Option.some.inj h)
      simp [List.isEmpty_iff.mp hempty]
    · cases h
  | cons c rest ih =>
    unfold cutAt at h
    split at h
    · rename_i hfound
      obtain ⟨rfl, rfl⟩ := Prod.mk.inj (Option.some.inj h)
      exact (List.isPrefixOf?_eq_some_iff_append_eq.mp hfound).symm
    · obtain ⟨⟨before, _⟩, hrest, heq⟩ := Option.map_eq_some_iff.mp h
      obtain ⟨rfl, rfl⟩ := Prod.mk.inj heq
      rw [ih hrest, List.cons_append]

theorem splitOn_ended {parts : List (List Char)} (h : ∀ part ∈ parts, '\n' ∉ part) :
    (parts.flatMap (· ++ ['\n'])).splitOn '\n' = parts ++ [[]] := by
  induction parts with
  | nil => rfl
  | cons part parts ih =>
    rw [List.forall_mem_cons] at h
    rw [List.flatMap_cons, List.append_assoc, List.singleton_append,
      List.splitOn_append_cons_self_of_not_mem h.1, ih h.2, List.cons_append]

/-- Lines that are joined are read again. -/
theorem lines_join {texts : List String}
    (h : ∀ text ∈ texts, '\n' ∉ text.toList ∧ text.toList.getLast? ≠ some '\r') :
    lines (String.join (texts.map (· ++ "\n"))) = texts := by
  have hlist : (String.join (texts.map (· ++ "\n"))).toList =
      (texts.map String.toList).flatMap (· ++ ['\n']) := by
    induction texts with
    | nil => rfl
    | cons text texts ih => simp [ih (List.forall_mem_cons.mp h).2]
  have hparts : ∀ part ∈ texts.map String.toList, '\n' ∉ part :=
    List.forall_mem_map.mpr fun text htext => (h text htext).1
  simp only [lines, hlist, splitOn_ended hparts, List.getLast?_concat, List.dropLast_concat,
    Option.filter_some, ne_eq, not_true_eq_false, decide_false, Bool.false_eq_true, if_false,
    Option.toList_none, List.append_nil, List.map_map]
  refine (List.map_congr_left fun text htext => ?_).trans (List.map_id _)
  simp [(h text htext).2]

example : lines "G28\r\nG1 X1\r" = ["G28", "G1 X1\r"] := by decide

/-- What is stripped and what is left make up the string. -/
theorem stripPrefix_append (pattern rest : String) :
    stripPrefix (pattern ++ rest) pattern = some rest := by
  simp [stripPrefix]

theorem eq_append_of_stripPrefix {s pattern rest : String}
    (h : stripPrefix s pattern = some rest) : s = pattern ++ rest := by
  obtain ⟨after, hafter, rfl⟩ := Option.map_eq_some_iff.mp h
  apply String.toList_inj.mp
  simp [List.isPrefixOf?_eq_some_iff_append_eq.mp hafter]

/-- White space separates words. -/
theorem words_append_cons {c : Char} (hc : isWhitespace c) (before after : List Char) :
    words (String.ofList (before ++ c :: after)) =
      words (String.ofList before) ++ words (String.ofList after) := by
  simp only [words, String.toList_ofList]
  rw [List.splitOnP_append_cons before after hc, List.filter_append, List.map_append]

theorem words_cons {c : Char} (hc : isWhitespace c) (after : List Char) :
    words (String.ofList (c :: after)) = words (String.ofList after) := by
  simpa [words] using words_append_cons hc [] after

/-- White space around a text makes no words. -/
theorem words_between {before text after : List Char} (hbefore : ∀ c ∈ before, isWhitespace c)
    (hafter : ∀ c ∈ after, isWhitespace c) :
    words (String.ofList (before ++ (text ++ after))) = words (String.ofList text) := by
  induction before with
  | nil =>
    induction after generalizing text with
    | nil => rw [List.append_nil, List.nil_append]
    | cons c after ih =>
      obtain ⟨hc, hafter⟩ := List.forall_mem_cons.mp hafter
      have hnone : words (String.ofList after) = words (String.ofList []) := @ih [] hafter
      rw [List.nil_append, words_append_cons hc, hnone]
      simp [words]
  | cons c before ih =>
    obtain ⟨hc, hbefore⟩ := List.forall_mem_cons.mp hbefore
    rw [List.cons_append, words_cons hc, ih hbefore]

theorem exists_trim (s : String) : ∃ before after : List Char,
    s.toList = before ++ ((trim s).toList ++ after) ∧
      (∀ c ∈ before, isWhitespace c) ∧ ∀ c ∈ after, isWhitespace c := by
  refine ⟨s.toList.takeWhile isWhitespace,
    ((s.toList.dropWhile isWhitespace).reverse.takeWhile isWhitespace).reverse, ?_,
    fun c hc => List.mem_takeWhile_imp hc,
    fun c hc => List.mem_takeWhile_imp (List.mem_reverse.mp hc)⟩
  rw [trim, String.toList_ofList, ← List.reverse_append, List.takeWhile_append_dropWhile,
    List.reverse_reverse, List.takeWhile_append_dropWhile]

theorem words_trim (s : String) : words (trim s) = words s := by
  obtain ⟨before, after, hs, hbefore, hafter⟩ := exists_trim s
  have hwords : words (String.ofList (before ++ ((trim s).toList ++ after))) =
      words (String.ofList (trim s).toList) := words_between hbefore hafter
  rw [← hs, String.ofList_toList, String.ofList_toList] at hwords
  exact hwords.symm

/-- White space around a text makes no words before a separator. -/
theorem words_firstSegment_trim (s : String) {separator : Char}
    (hseparator : isWhitespace separator = false) :
    words (firstSegment (trim s) separator) = words (firstSegment s separator) := by
  obtain ⟨before, after, hs, hbefore, hafter⟩ := exists_trim s
  have hpass {space : List Char} (h : ∀ c ∈ space, isWhitespace c) :
      ∀ c ∈ space, (c != separator) = true := by
    intro c hc
    have hne : c ≠ separator := by
      rintro rfl
      rw [h c hc] at hseparator
      cases hseparator
    simpa using hne
  have hsegment (text : List Char) : ∃ space : List Char, (∀ c ∈ space, isWhitespace c) ∧
      (text ++ after).takeWhile (· != separator) = text.takeWhile (· != separator) ++ space := by
    rw [List.takeWhile_append]
    split
    · rename_i hall
      refine ⟨after, hafter, ?_⟩
      rw [List.takeWhile_eq_self_iff.mpr (hpass hafter),
        (List.takeWhile_prefix _).eq_of_length hall]
    · exact ⟨[], nofun, (List.append_nil _).symm⟩
  obtain ⟨space, hspace, htake⟩ := hsegment (trim s).toList
  rw [firstSegment, firstSegment, hs, List.takeWhile_append_of_pos (hpass hbefore), htake,
    words_between hbefore hspace]

end Dryer.Library
