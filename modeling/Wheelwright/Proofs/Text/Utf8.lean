import Wheelwright.Text.Utf8
/-!
# Bytes that are text

Every character has one spelling: the bytes that a reader takes for a character are those that
writing the character gives. So the bytes that are read as a text are those that writing the text
gives (`decode?_eq_some_iff`), and these are the bytes that a text is stored as (`encode_eq`).
-/

namespace Wheelwright.Utf8

theorem toNat_ofNat {n : Nat} (h : n.isValidChar) : (Char.ofNat n).toNat = n := by
  rw [Char.ofNat, dif_pos h]
  rfl

theorem toUInt8_eq_of_toNat {n : Nat} {b : UInt8} (h : n = b.toNat) : n.toUInt8 = b := by
  rw [h, Nat.toUInt8_eq, UInt8.ofNat_toNat]

/-! ## One character -/

theorem encodeChar_oneByte {a : UInt8} (h : a.toNat < 0x80) :
    encodeChar (Char.ofNat a.toNat) = [a] := by
  have hn : (Char.ofNat a.toNat).toNat = a.toNat := toNat_ofNat (.inl (by omega))
  simp only [encodeChar, hn, if_pos h, toUInt8_eq_of_toNat (b := a)]

theorem encodeChar_twoBytes {a b : UInt8} (ha : 0xC2 ≤ a.toNat) (ha' : a.toNat < 0xE0)
    (hb : isTail b = true) : encodeChar (twoBytes a b) = [a, b] := by
  simp only [isTail, Bool.and_eq_true, decide_eq_true_eq] at hb
  have hn : (twoBytes a b).toNat = (a.toNat - 0xC0) * 64 + (b.toNat - 0x80) :=
    toNat_ofNat (.inl (by omega))
  rw [encodeChar, hn]
  rw [if_neg (by omega), if_pos (by omega), toUInt8_eq_of_toNat (b := a) (by omega),
    toUInt8_eq_of_toNat (b := b) (by omega)]

theorem encodeChar_threeBytes {a b c : UInt8} (hb : isSecondOfThree a b = true)
    (hc : isTail c = true) : encodeChar (threeBytes a b c) = [a, b, c] := by
  simp only [isSecondOfThree, isTail, Bool.and_eq_true, Bool.or_eq_true, bne_iff_ne,
    decide_eq_true_eq] at hb hc
  have hn : (threeBytes a b c).toNat =
      (a.toNat - 0xE0) * 4096 + (b.toNat - 0x80) * 64 + (c.toNat - 0x80) := by
    apply toNat_ofNat
    unfold Nat.isValidChar
    omega
  rw [encodeChar, hn]
  rw [if_neg (by omega), if_neg (by omega), if_pos (by omega),
    toUInt8_eq_of_toNat (b := a) (by omega), toUInt8_eq_of_toNat (b := b) (by omega),
    toUInt8_eq_of_toNat (b := c) (by omega)]

theorem encodeChar_fourBytes {a b c d : UInt8} (hb : isSecondOfFour a b = true)
    (hc : isTail c = true) (hd : isTail d = true) :
    encodeChar (fourBytes a b c d) = [a, b, c, d] := by
  simp only [isSecondOfFour, isTail, Bool.and_eq_true, Bool.or_eq_true, bne_iff_ne,
    decide_eq_true_eq] at hb hc hd
  have hn : (fourBytes a b c d).toNat = (a.toNat - 0xF0) * 262144 + (b.toNat - 0x80) * 4096 +
      (c.toNat - 0x80) * 64 + (d.toNat - 0x80) := by
    apply toNat_ofNat
    unfold Nat.isValidChar
    omega
  rw [encodeChar, hn]
  rw [if_neg (by omega), if_neg (by omega), if_neg (by omega),
    toUInt8_eq_of_toNat (b := a) (by omega), toUInt8_eq_of_toNat (b := b) (by omega),
    toUInt8_eq_of_toNat (b := c) (by omega), toUInt8_eq_of_toNat (b := d) (by omega)]

/-! ## Many characters -/

/-- Bytes without a gap are the bytes of the characters that they spell. -/
theorem flatMap_scan {bs : Bytes} (h : none ∉ scan bs) :
    (scan bs).flatMap (fun c => (c.map encodeChar).getD []) = bs := by
  fun_induction scan bs with
  | case1 => rfl
  | case2 a r ha ih =>
    rw [List.mem_cons, not_or] at h
    rw [List.flatMap_cons, ih h.2, Option.map_some, Option.getD_some, encodeChar_oneByte ha]
    rfl
  | case4 a _ b r hb ih =>
    simp only [Bool.and_eq_true, decide_eq_true_eq] at hb
    rw [List.mem_cons, not_or] at h
    rw [List.flatMap_cons, ih h.2, Option.map_some, Option.getD_some,
      encodeChar_twoBytes hb.1.1 hb.1.2 hb.2]
    rfl
  | case6 a _ b _ hb c r hc ih =>
    rw [List.mem_cons, not_or] at h
    rw [List.flatMap_cons, ih h.2, Option.map_some, Option.getD_some,
      encodeChar_threeBytes hb hc]
    rfl
  | case10 a _ b _ _ hb c hc d r hd ih =>
    rw [List.mem_cons, not_or] at h
    rw [List.flatMap_cons, ih h.2, Option.map_some, Option.getD_some,
      encodeChar_fourBytes hb hc hd]
    rfl
  | case3 | case5 | case7 | case8 | case9 | case11 | case12 | case13 =>
    exact absurd List.mem_cons_self h

/-- What is read item by item from a list is read from what writing the items gives, if so is each
item. -/
theorem mapM_eq_some_iff {α β : Type} {read : α → Option β} {write : β → α}
    (h : ∀ a b, read a = some b ↔ a = write b) {l : List α} {bs : List β} :
    l.mapM read = some bs ↔ l = bs.map write := by
  induction l generalizing bs with
  | nil => cases bs <;> simp
  | cons a l ih =>
    cases bs with
    | nil => simp [List.mapM_cons, Option.bind_eq_some_iff]
    | cons b bs => simp [List.mapM_cons, Option.bind_eq_some_iff, ih, h]

/-- Bytes that are read as characters throughout are those that writing the characters gives. -/
theorem scan_eq_map_some_iff {bs : Bytes} {cs : List Char} :
    scan bs = cs.map some ↔ cs.flatMap encodeChar = bs := by
  constructor
  · intro h
    have hall : none ∉ scan bs := by simp [h]
    have hb := flatMap_scan hall
    rwa [h, List.flatMap_map] at hb
  · rintro rfl
    have h := scan_encode cs []
    rwa [List.append_nil, scan, List.append_nil] at h

/-- What is read as a text are the bytes that writing the text gives, and nothing else. -/
theorem decode?_eq_some_iff {bs : Bytes} {s : String} : decode? bs = some s ↔ encode s = bs := by
  constructor
  · intro h
    obtain ⟨cs, hc, rfl⟩ := Option.map_eq_some_iff.1 h
    rw [encode, String.toList_ofList]
    exact scan_eq_map_some_iff.1 ((mapM_eq_some_iff fun _ _ => Iff.rfl).1 hc)
  · rintro rfl
    exact decode?_encode s

/-! ## The bytes that a text is stored as -/

theorem encodeChar_eq (c : Char) : encodeChar c = String.utf8EncodeChar c := by
  have hv : c.toNat < 55296 ∨ 57343 < c.toNat ∧ c.toNat < 1114112 := c.valid
  have hn : c.val.toNat = c.toNat := rfl
  unfold encodeChar String.utf8EncodeChar
  dsimp only
  rw [hn]
  generalize c.toNat = n at hv
  by_cases h₁ : n < 0x80
  · rw [if_pos h₁, if_pos (show n ≤ 127 by omega), Nat.toUInt8_eq]
  · rw [if_neg h₁, if_neg (show ¬n ≤ 127 by omega)]
    by_cases h₂ : n < 0x800
    · rw [if_pos h₂, if_pos (show n ≤ 2047 by omega), show n / 64 % 32 = n / 64 by omega,
        Nat.add_comm 0xC0, Nat.add_comm 0x80]
    · rw [if_neg h₂, if_neg (show ¬n ≤ 2047 by omega)]
      by_cases h₃ : n < 0x10000
      · rw [if_pos h₃, if_pos (show n ≤ 65535 by omega), show n / 4096 % 16 = n / 4096 by omega,
          Nat.add_comm 0xE0, Nat.add_comm 0x80, Nat.add_comm 0x80]
      · rw [if_neg h₃, if_neg (show ¬n ≤ 65535 by omega),
          show n / 262144 % 8 = n / 262144 by omega, Nat.add_comm 0xF0, Nat.add_comm 0x80,
          Nat.add_comm 0x80, Nat.add_comm 0x80]

theorem encodeChar_ne_nil (c : Char) : encodeChar c ≠ [] := by
  rw [encodeChar_eq]
  exact String.utf8EncodeChar_ne_nil

/-- Writing a text gives the bytes that it is stored as. -/
theorem encode_eq (s : String) : encode s = s.toByteArray.data.toList := by
  have hc : encodeChar = String.utf8EncodeChar := funext encodeChar_eq
  rw [← String.utf8Encode_toList, List.utf8Encode, List.data_toByteArray, encode, hc]

/-- A character takes one byte at least. -/
theorem length_le_utf8ByteSize (s : String) : s.length ≤ s.utf8ByteSize := by
  have h : ∀ cs : List Char, cs.length ≤ (String.ofList cs).utf8ByteSize := by
    intro cs
    induction cs with
    | nil => exact Nat.zero_le _
    | cons c cs ih =>
      have hc := c.utf8Size_pos
      rw [List.length_cons, String.ofList_cons, String.utf8ByteSize_append,
        String.utf8ByteSize_singleton]
      omega
  have hs := h s.toList
  rwa [String.ofList_toList, String.length_toList] at hs

/-- So a text has no more characters than bytes. -/
theorem length_le_length_encode (s : String) : s.length ≤ (encode s).length := by
  rw [encode_eq]
  exact length_le_utf8ByteSize s

end Wheelwright.Utf8
