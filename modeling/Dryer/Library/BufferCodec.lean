import Mathlib.Data.List.Basic

/-!
# Codecs over a caller's buffer

An encoder writes over the front of a buffer it is given and returns how much it wrote; a
decoder reads exactly one value. `Codes` says, by the word of each value, what such a pair
does on every input. Round trips and canonicity both follow from it, and from nothing else
about the pair.
-/
namespace Dryer.Library.BufferCodec

variable {β α ε δ : Type}

/-- What is left of the buffer is the second component. -/
abbrev Encoder (β ε α : Type) := α → List β → Except ε Nat × List β

abbrev Decoder (β δ α : Type) := List β → Except δ α

/-- The encoder writes the word of a value that fits, given room, and otherwise writes
nothing; the decoder accepts the words of the values that fit. -/
structure Codes (encode : Encoder β ε α) (decode : Decoder β δ α) (fits : α → Prop)
    (word : α → List β) : Prop where
  writes : ∀ a output, fits a → (word a).length ≤ output.length →
    encode a output = (.ok (word a).length, word a ++ output.drop (word a).length)
  refuses : ∀ a output, ¬ (fits a ∧ (word a).length ≤ output.length) →
    ∃ e, encode a output = (.error e, output)
  decode_iff : ∀ b a, decode b = .ok a ↔ fits a ∧ b = word a

/-- What is encoded is decoded, the rest of the buffer is left alone, and an encoder that
fails has written nothing. -/
structure RoundTrips (encode : Encoder β ε α) (decode : Decoder β δ α) (fits : α → Prop)
    (encodedLen : α → Nat) (maxLen : Nat) : Prop where
  encodes : ∀ a output, fits a → encodedLen a ≤ output.length →
    ∃ n buffer, encode a output = (.ok n, buffer) ∧ n = encodedLen a ∧ n ≤ maxLen ∧
      buffer.length = output.length ∧ (∀ i, n ≤ i → buffer[i]? = output[i]?) ∧
      decode (buffer.take n) = .ok a
  refuses : ∀ a output, ¬ (fits a ∧ encodedLen a ≤ output.length) →
    ∃ e, encode a output = (.error e, output)

/-- Every value that is decoded has one encoding, the bytes it was decoded from. -/
structure Canonical (encode : Encoder β ε α) (decode : Decoder β δ α) : Prop where
  reencodes : ∀ b a output, decode b = .ok a → b.length ≤ output.length →
    ∃ buffer, encode a output = (.ok b.length, buffer) ∧ buffer.take b.length = b
  accepts_image : ∀ b, (∃ a, decode b = .ok a) ↔
    ∃ a output n buffer, encode a output = (.ok n, buffer) ∧ buffer.take n = b
  injective : ∀ b b' a, decode b = .ok a → decode b' = .ok a → b = b'

namespace Codes

variable {encode : Encoder β ε α} {decode : Decoder β δ α} {fits : α → Prop}
  {word : α → List β}

theorem roundTrips (h : Codes encode decode fits word) {encodedLen : α → Nat} {maxLen : Nat}
    (hlen : ∀ a, (word a).length = encodedLen a)
    (hmax : ∀ a, fits a → (word a).length ≤ maxLen) :
    RoundTrips encode decode fits encodedLen maxLen where
  encodes := by
    intro a output hfits hroom
    rw [← hlen] at hroom
    refine ⟨_, _, h.writes a output hfits hroom, hlen a, hmax a hfits, ?_, ?_, ?_⟩
    · rw [List.length_append, List.length_drop]
      omega
    · intro i hi
      rw [List.getElem?_append_right hi, List.getElem?_drop, Nat.add_sub_cancel' hi]
    · rw [List.take_left]
      exact (h.decode_iff _ _).mpr ⟨hfits, rfl⟩
  refuses := by
    intro a output hnot
    rw [← hlen] at hnot
    exact h.refuses a output hnot

/-- A success of the encoder shows its word. -/
theorem of_encode_eq_ok (h : Codes encode decode fits word) {a : α} {output buffer : List β}
    {n : Nat} (hencode : encode a output = (.ok n, buffer)) :
    fits a ∧ buffer.take n = word a := by
  by_cases hok : fits a ∧ (word a).length ≤ output.length
  · have hwrites := h.writes a output hok.1 hok.2
    rw [hencode] at hwrites
    obtain ⟨hn, rfl⟩ := Prod.mk.inj hwrites
    obtain rfl := Except.ok.inj hn
    exact ⟨hok.1, List.take_left⟩
  · obtain ⟨e, he⟩ := h.refuses a output hok
    rw [hencode] at he
    cases he

/-- The buffer keeps its length. -/
theorem length_output (h : Codes encode decode fits word) (a : α) (output : List β) :
    (encode a output).2.length = output.length := by
  by_cases hok : fits a ∧ (word a).length ≤ output.length
  · rw [h.writes a output hok.1 hok.2, List.length_append, List.length_drop]
    have := hok.2
    omega
  · obtain ⟨e, he⟩ := h.refuses a output hok
    rw [he]

theorem canonical (h : Codes encode decode fits word) : Canonical encode decode where
  reencodes := by
    intro b a output hdecode hroom
    obtain ⟨hfits, rfl⟩ := (h.decode_iff b a).mp hdecode
    exact ⟨_, h.writes a output hfits hroom, List.take_left⟩
  accepts_image := by
    intro b
    constructor
    · intro ⟨a, hdecode⟩
      obtain ⟨hfits, rfl⟩ := (h.decode_iff b a).mp hdecode
      exact ⟨a, word a, _, _, h.writes a (word a) hfits (Nat.le_refl _), List.take_left⟩
    · intro ⟨a, output, n, buffer, hencode, htake⟩
      obtain ⟨hfits, hword⟩ := h.of_encode_eq_ok hencode
      exact ⟨a, (h.decode_iff b a).mpr ⟨hfits, htake.symm.trans hword⟩⟩
  injective := by
    intro b b' a hb hb'
    rw [((h.decode_iff b a).mp hb).2, ((h.decode_iff b' a).mp hb').2]

end Codes

end Dryer.Library.BufferCodec
