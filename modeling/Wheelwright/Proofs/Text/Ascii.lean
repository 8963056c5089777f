import Wheelwright.Text.Utf8
/-!
# ASCII among the bytes of a text

In UTF-8 an ASCII character is one byte, and that byte is part of no other character. So an ASCII
character is in a text exactly if its byte is among the bytes of the text (`mem_encode_iff`).
-/

namespace Wheelwright.Utf8

/-- The byte of an ASCII character is none of the bytes from `0x80` on. -/
theorem toUInt8_ne_of_lt {a : Char} (ha : a.toNat < 0x80) {n : Nat} (hn : 0x80 ≤ n)
    (hb : n < 0x100) : a.toNat.toUInt8 ≠ n.toUInt8 := by
  intro h
  have ht := congrArg UInt8.toNat h
  simp only [Nat.toUInt8_eq, UInt8.toNat_ofNat'] at ht
  omega

/-- The byte of an ASCII character is among the bytes of that character only. -/
theorem mem_encodeChar_iff {a c : Char} (ha : a.toNat < 0x80) :
    a.toNat.toUInt8 ∈ encodeChar c ↔ a = c := by
  have hv : c.toNat < 55296 ∨ 57343 < c.toNat ∧ c.toNat < 1114112 := c.valid
  constructor
  · intro h
    unfold encodeChar at h
    dsimp only at h
    split at h
    · next hc =>
      have ht := congrArg UInt8.toNat (List.mem_singleton.1 h)
      simp only [Nat.toUInt8_eq, UInt8.toNat_ofNat'] at ht
      rw [← Char.ofNat_toNat a, ← Char.ofNat_toNat c, show a.toNat = c.toNat by omega]
    · exfalso
      split at h
      · simp only [List.mem_cons, List.not_mem_nil, or_false] at h
        rcases h with h | h <;> exact toUInt8_ne_of_lt ha (by omega) (by omega) h
      · split at h
        · simp only [List.mem_cons, List.not_mem_nil, or_false] at h
          rcases h with h | h | h <;> exact toUInt8_ne_of_lt ha (by omega) (by omega) h
        · simp only [List.mem_cons, List.not_mem_nil, or_false] at h
          rcases h with h | h | h | h <;> exact toUInt8_ne_of_lt ha (by omega) (by omega) h
  · rintro rfl
    unfold encodeChar
    rw [if_pos ha]
    exact List.mem_singleton_self _

/-- An ASCII character is in a text exactly if its byte is among the bytes of the text. -/
theorem mem_encode_iff {a : Char} (ha : a.toNat < 0x80) (s : String) :
    a.toNat.toUInt8 ∈ encode s ↔ a ∈ s.toList := by
  rw [encode, List.mem_flatMap]
  constructor
  · rintro ⟨c, hc, h⟩
    rwa [(mem_encodeChar_iff ha).1 h]
  · intro h
    exact ⟨a, h, (mem_encodeChar_iff ha).2 rfl⟩

end Wheelwright.Utf8
