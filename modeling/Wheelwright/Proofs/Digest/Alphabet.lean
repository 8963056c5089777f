import Wheelwright.Digest.Hex
import Wheelwright.Digest.Base64Url
/-!
# Texts of an alphabet

Both forms of a digest are written in an alphabet, and the value of a character is its place there.
So every character that is written is one of the alphabet (`Base64Url.mem_alphabet_of_mem_encode`,
`Hex.mem_digits_of_mem_encode`), and every value is read from one character only
(`Base64Url.value?_eq_some_iff`, `Hex.value?_eq_some_iff`).
-/

namespace Wheelwright

namespace Alphabet

/-- A character with a place in an alphabet is the one at that place. -/
theorem eq_getD_of_idxOf? {alphabet : List Char} {c : Char} {n : Nat}
    (h : alphabet.idxOf? c = some n) (other : Char) :
    n < alphabet.length ∧ c = alphabet.getD n other := by
  obtain ⟨hn, hc, -⟩ := List.idxOf?_eq_some_iff.1 h
  refine ⟨hn, ?_⟩
  rw [List.getD_eq_getElem?_getD, List.getElem?_eq_getElem hn, Option.getD_some, hc]

/-- What stands at a place of an alphabet is in it, and so is what stands for every place past its
end. -/
theorem getD_mem {alphabet : List Char} {other : Char} (h : other ∈ alphabet) (n : Nat) :
    alphabet.getD n other ∈ alphabet := by
  rw [List.getD_eq_getElem?_getD]
  cases hc : alphabet[n]? with
  | none => exact h
  | some c => exact List.mem_of_getElem? hc

end Alphabet

namespace Base64Url

theorem value?_eq_some_iff {c : Char} {n : Nat} : value? c = some n ↔ n < 64 ∧ c = char n := by
  constructor
  · exact fun h => Alphabet.eq_getD_of_idxOf? h 'A'
  · rintro ⟨hn, rfl⟩
    exact value?_char hn

theorem char_mem_alphabet (n : Nat) : char n ∈ alphabet := Alphabet.getD_mem List.mem_cons_self n

theorem mem_alphabet_of_mem_encode {bs : Bytes} {c : Char} (h : c ∈ encode bs) : c ∈ alphabet := by
  fun_induction encode bs with
  | case1 => cases h
  | case2 a =>
    simp only [List.mem_cons, List.not_mem_nil, or_false] at h
    rcases h with rfl | rfl <;> exact char_mem_alphabet _
  | case3 a b =>
    simp only [List.mem_cons, List.not_mem_nil, or_false] at h
    rcases h with rfl | rfl | rfl <;> exact char_mem_alphabet _
  | case4 a b d rest ih =>
    rw [List.mem_append] at h
    rcases h with h | h
    · simp only [List.mem_cons, List.not_mem_nil, or_false] at h
      rcases h with rfl | rfl | rfl | rfl <;> exact char_mem_alphabet _
    · exact ih h

end Base64Url

namespace Hex

theorem value?_eq_some_iff {c : Char} {n : Nat} : value? c = some n ↔ n < 16 ∧ c = digit n := by
  constructor
  · exact fun h => Alphabet.eq_getD_of_idxOf? h '0'
  · rintro ⟨hn, rfl⟩
    exact value?_digit hn

theorem digit_mem_digits (n : Nat) : digit n ∈ digits := Alphabet.getD_mem List.mem_cons_self n

theorem mem_digits_of_mem_encode {bs : Bytes} {c : Char} (h : c ∈ encode bs) : c ∈ digits := by
  obtain ⟨b, -, hc⟩ := List.mem_flatMap.1 h
  simp only [List.mem_cons, List.not_mem_nil, or_false] at hc
  rcases hc with rfl | rfl <;> exact digit_mem_digits _

end Hex

end Wheelwright
