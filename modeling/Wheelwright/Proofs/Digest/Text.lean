import Wheelwright.Digest
import Wheelwright.Proofs.Digest.Bits
import Wheelwright.Proofs.Digest.Alphabet
import Wheelwright.Proofs.Digest.Conformance
/-!
# Two texts for one digest

The decoders of both forms take exactly what the encoders write (`Base64Url.decode?_eq_some_iff`,
`Hex.decode?_eq_some_iff`), so that neither form has two texts for the same bytes or one text for
different ones. That they are the forms they are called is said bit by bit: the characters stand
for six bits or four each, and these are the bits of the bytes in order, in base64 with zeros at the
end up to a whole character (`Base64Url.bits_encode`, `Hex.bits_encode`).

The main statement is `digest_texts`.
-/

namespace Wheelwright

namespace Base64Url

/-- What is decoded was encoded: two, three or four characters at a time spell one, two or three
bytes, and no bits are left over. -/
theorem eq_encode_of_decode? {cs : List Char} {bs : Bytes} (h : decode? cs = some bs) :
    cs = encode bs := by
  fun_induction decode? cs generalizing bs with
  | case1 =>
    cases h
    rfl
  | case2 => cases h
  | case3 p q =>
    simp only [Option.bind_eq_bind, Option.bind_eq_some_iff, value?_eq_some_iff] at h
    obtain ⟨p, ⟨hp, rfl⟩, q, ⟨hq, rfl⟩, h⟩ := h
    split at h
    · next hz =>
      cases h
      have ha := Utf8.toNat_toUInt8_of_lt (show p * 4 + q / 16 < 256 by omega)
      have h₁ : (p * 4 + q / 16) / 4 = p := by omega
      have h₂ : (p * 4 + q / 16) % 4 * 16 = q := by omega
      rw [encode, ha, h₁, h₂]
    · cases h
  | case4 p q r =>
    simp only [Option.bind_eq_bind, Option.bind_eq_some_iff, value?_eq_some_iff] at h
    obtain ⟨p, ⟨hp, rfl⟩, q, ⟨hq, rfl⟩, r, ⟨hr, rfl⟩, h⟩ := h
    split at h
    · next hz =>
      cases h
      have ha := Utf8.toNat_toUInt8_of_lt (show p * 4 + q / 16 < 256 by omega)
      have hb := Utf8.toNat_toUInt8_of_lt (show q % 16 * 16 + r / 4 < 256 by omega)
      have h₁ : (p * 4 + q / 16) / 4 = p := by omega
      have h₂ : (p * 4 + q / 16) % 4 * 16 + (q % 16 * 16 + r / 4) / 16 = q := by omega
      have h₃ : (q % 16 * 16 + r / 4) % 16 * 4 = r := by omega
      rw [encode, ha, hb, h₁, h₂, h₃]
    · cases h
  | case5 p q r s rest ih =>
    simp only [Option.bind_eq_bind, Option.bind_eq_some_iff, value?_eq_some_iff] at h
    obtain ⟨p, ⟨hp, rfl⟩, q, ⟨hq, rfl⟩, r, ⟨hr, rfl⟩, s, ⟨hs, rfl⟩, bytes, hbytes, h⟩ := h
    cases h
    have ha := Utf8.toNat_toUInt8_of_lt (show p * 4 + q / 16 < 256 by omega)
    have hb := Utf8.toNat_toUInt8_of_lt (show q % 16 * 16 + r / 4 < 256 by omega)
    have hc := Utf8.toNat_toUInt8_of_lt (show r % 4 * 64 + s < 256 by omega)
    have h₁ : (p * 4 + q / 16) / 4 = p := by omega
    have h₂ : (p * 4 + q / 16) % 4 * 16 + (q % 16 * 16 + r / 4) / 16 = q := by omega
    have h₃ : (q % 16 * 16 + r / 4) % 16 * 4 + (r % 4 * 64 + s) / 64 = r := by omega
    have h₄ : (r % 4 * 64 + s) % 64 = s := by omega
    rw [encode, ha, hb, hc, h₁, h₂, h₃, h₄, ih hbytes]
    rfl

/-- The decoder takes what the encoder writes and nothing else. -/
theorem decode?_eq_some_iff {cs : List Char} {bs : Bytes} :
    decode? cs = some bs ↔ cs = encode bs := by
  constructor
  · exact eq_encode_of_decode?
  · rintro rfl
    exact decode?_encode bs

theorem encode_inj {bs other : Bytes} : encode bs = encode other ↔ bs = other := by
  rw [← decode?_eq_some_iff, decode?_encode, Option.some.injEq]

/-! ## Six bits a character -/

/-- The bits that a character stands for. -/
def charBits : Char → List Bool := Bits.ofChar 6 alphabet

theorem charBits_char {n : Nat} (h : n < 64) : charBits (char n) = Bits.ofNat 6 n :=
  Bits.ofChar_of_idxOf? (value?_char h) 6

/-- The first character of a group has six bits of the first byte. -/
theorem charBits_first {a : Nat} (ha : a < 256) :
    charBits (char (a / 4)) = Bits.ofNat 6 (a / 4) :=
  charBits_char (by omega)

/-- The second has the two that are left, and four of the second byte. -/
theorem charBits_second (a : Nat) {b : Nat} (hb : b < 256) :
    charBits (char (a % 4 * 16 + b / 16)) = Bits.ofNat 2 a ++ Bits.ofNat 4 (b / 16) := by
  have hlow : b / 16 < 2 ^ 4 := by omega
  rw [charBits_char (by omega), ← Bits.ofNat_mod (Nat.le_refl 2) a]
  exact Bits.ofNat_join hlow (a % 4)

/-- The third has the four that are left, and two of the third byte. -/
theorem charBits_third (b : Nat) {c : Nat} (hc : c < 256) :
    charBits (char (b % 16 * 4 + c / 64)) = Bits.ofNat 4 b ++ Bits.ofNat 2 (c / 64) := by
  have hlow : c / 64 < 2 ^ 2 := by omega
  rw [charBits_char (by omega), ← Bits.ofNat_mod (Nat.le_refl 4) b]
  exact Bits.ofNat_join hlow (b % 16)

/-- The fourth has the six that are left. -/
theorem charBits_fourth (c : Nat) : charBits (char (c % 64)) = Bits.ofNat 6 c := by
  rw [charBits_char (by omega)]
  exact Bits.ofNat_mod (Nat.le_refl 6) c

/-- Where a group ends early, zeros stand for what would come next. -/
theorem charBits_second_last (a : Nat) :
    charBits (char (a % 4 * 16)) = Bits.ofNat 2 a ++ List.replicate 4 false := by
  have hz : Bits.ofNat 4 0 = List.replicate 4 false := by decide
  have h := charBits_second a (Nat.zero_lt_succ 255)
  rwa [Nat.zero_div, Nat.add_zero, hz] at h

theorem charBits_third_last (b : Nat) :
    charBits (char (b % 16 * 4)) = Bits.ofNat 4 b ++ List.replicate 2 false := by
  have hz : Bits.ofNat 2 0 = List.replicate 2 false := by decide
  have h := charBits_third b (Nat.zero_lt_succ 255)
  rwa [Nat.zero_div, Nat.add_zero, hz] at h

/-- An encoding has the bits of the bytes, and zeros up to a whole character. -/
theorem bits_encode (bs : Bytes) : (encode bs).flatMap charBits =
    bs.flatMap (fun b => Bits.ofNat 8 b.toNat) ++
      List.replicate ((3 - bs.length % 3) % 3 * 2) false := by
  have hfirst (a : UInt8) : Bits.ofNat 8 a.toNat =
      Bits.ofNat 6 (a.toNat / 4) ++ Bits.ofNat 2 a.toNat := Bits.ofNat_add 6 2 a.toNat
  have hsecond (b : UInt8) : Bits.ofNat 8 b.toNat =
      Bits.ofNat 4 (b.toNat / 16) ++ Bits.ofNat 4 b.toNat := Bits.ofNat_add 4 4 b.toNat
  have hthird (c : UInt8) : Bits.ofNat 8 c.toNat =
      Bits.ofNat 2 (c.toNat / 64) ++ Bits.ofNat 6 c.toNat := Bits.ofNat_add 2 6 c.toNat
  fun_induction encode bs with
  | case1 => rfl
  | case2 a =>
    simp only [List.flatMap_cons, List.flatMap_nil, charBits_first a.toNat_lt,
      charBits_second_last, hfirst a, List.append_assoc, List.append_nil]
    rfl
  | case3 a b =>
    simp only [List.flatMap_cons, List.flatMap_nil, charBits_first a.toNat_lt,
      charBits_second a.toNat b.toNat_lt, charBits_third_last, hfirst a, hsecond b,
      List.append_assoc, List.append_nil]
    rfl
  | case4 a b c rest ih =>
    have hlength : (a :: b :: c :: rest).length % 3 = rest.length % 3 := by
      simp only [List.length_cons]
      omega
    simp only [List.flatMap_append, List.flatMap_cons, List.flatMap_nil, ih, hlength,
      charBits_first a.toNat_lt, charBits_second a.toNat b.toNat_lt,
      charBits_third b.toNat c.toNat_lt, charBits_fourth, hfirst a, hsecond b, hthird c,
      List.append_assoc, List.nil_append]

end Base64Url

namespace Hex

/-- What is decoded was encoded, two digits for each byte. -/
theorem eq_encode_of_decode? {cs : List Char} {bs : Bytes} (h : decode? cs = some bs) :
    cs = encode bs := by
  fun_induction decode? cs generalizing bs with
  | case1 =>
    cases h
    rfl
  | case2 => cases h
  | case3 p q rest ih =>
    simp only [Option.bind_eq_bind, Option.bind_eq_some_iff, value?_eq_some_iff] at h
    obtain ⟨p, ⟨hp, rfl⟩, q, ⟨hq, rfl⟩, bytes, hbytes, h⟩ := h
    cases h
    have ha := Utf8.toNat_toUInt8_of_lt (show p * 16 + q < 256 by omega)
    have h₁ : (p * 16 + q) / 16 = p := by omega
    have h₂ : (p * 16 + q) % 16 = q := by omega
    rw [encode, List.flatMap_cons, ha, h₁, h₂, ih hbytes]
    rfl

/-- The decoder takes what the encoder writes and nothing else. -/
theorem decode?_eq_some_iff {cs : List Char} {bs : Bytes} :
    decode? cs = some bs ↔ cs = encode bs := by
  constructor
  · exact eq_encode_of_decode?
  · rintro rfl
    exact decode?_encode bs

theorem encode_inj {bs other : Bytes} : encode bs = encode other ↔ bs = other := by
  rw [← decode?_eq_some_iff, decode?_encode, Option.some.injEq]

/-- The bits that a digit stands for. -/
def digitBits : Char → List Bool := Bits.ofChar 4 digits

theorem digitBits_digit {n : Nat} (h : n < 16) : digitBits (digit n) = Bits.ofNat 4 n :=
  Bits.ofChar_of_idxOf? (value?_digit h) 4

/-- The digits have the bits of the bytes. -/
theorem bits_encode (bs : Bytes) :
    (encode bs).flatMap digitBits = bs.flatMap fun b => Bits.ofNat 8 b.toNat := by
  induction bs with
  | nil => rfl
  | cons b bs ih =>
    have hb : b.toNat < 256 := b.toNat_lt
    have hbyte : Bits.ofNat 8 b.toNat =
        Bits.ofNat 4 (b.toNat / 16) ++ Bits.ofNat 4 b.toNat := Bits.ofNat_add 4 4 b.toNat
    have hlow : Bits.ofNat 4 (b.toNat % 16) = Bits.ofNat 4 b.toNat :=
      Bits.ofNat_mod (Nat.le_refl 4) b.toNat
    rw [encode] at ih
    simp only [encode, List.flatMap_cons, List.flatMap_append, List.flatMap_nil, ih, hbyte,
      digitBits_digit (show b.toNat / 16 < 16 by omega),
      digitBits_digit (show b.toNat % 16 < 16 by omega), hlow, List.append_assoc, List.nil_append]

end Hex

/-! ## Digests -/

theorem decode?_recordDigest (content : Bytes) :
    Base64Url.decode? (recordDigest content).toList = some (Sha256.digest content) := by
  rw [recordDigest, String.toList_ofList, Base64Url.decode?_encode]

theorem decode?_hexDigest (content : Bytes) :
    Hex.decode? (hexDigest content).toList = some (Sha256.digest content) := by
  rw [hexDigest, String.toList_ofList, Hex.decode?_encode]

/-- Manifests and people tell the same contents apart, those whose digests differ. -/
theorem recordDigest_eq_iff {content other : Bytes} :
    recordDigest content = recordDigest other ↔ hexDigest content = hexDigest other := by
  rw [recordDigest, recordDigest, hexDigest, hexDigest, String.ofList_inj, String.ofList_inj,
    Base64Url.encode_inj, Hex.encode_inj]

/-- The characters of a digest in a manifest. -/
theorem all_recordDigest (content : Bytes) : (recordDigest content).toList.all
    (fun c => c.isAlphanum || c == '-' || c == '_') = true := by
  have hall : Base64Url.alphabet.all (fun c => c.isAlphanum || c == '-' || c == '_') = true := by
    decide
  rw [recordDigest, String.toList_ofList]
  apply List.all_eq_true.2
  intro c hc
  exact List.all_eq_true.1 hall c (Base64Url.mem_alphabet_of_mem_encode hc)

/-- The characters of a digest for people. -/
theorem all_hexDigest (content : Bytes) : (hexDigest content).toList.all
    (fun c => c.isDigit || 'a' ≤ c && c ≤ 'f') = true := by
  have hall : Hex.digits.all (fun c => c.isDigit || 'a' ≤ c && c ≤ 'f') = true := by decide
  rw [hexDigest, String.toList_ofList]
  apply List.all_eq_true.2
  intro c hc
  exact List.all_eq_true.1 hall c (Hex.mem_digits_of_mem_encode hc)

/-- The two texts have the same bits, and that of manifests two zeros more. -/
theorem bits_recordDigest (content : Bytes) :
    (recordDigest content).toList.flatMap Base64Url.charBits =
      (hexDigest content).toList.flatMap Hex.digitBits ++ [false, false] := by
  rw [recordDigest, hexDigest, String.toList_ofList, String.toList_ofList, Base64Url.bits_encode,
    Hex.bits_encode, Sha256.length_digest]
  rfl

example : recordDigest (Utf8.encode "hello world\n") =
      "qUiQTy8PR5uPgZdpSzAYSw0u0cHNKh7A-4XSmaGSpEc" ∧
    hexDigest (Utf8.encode "hello world\n") =
      "a948904f2f0f479b8f8197694b30184b0d2ed1c1cd2a1ec0fb85d299a192a447" := by
  decide +kernel

end Wheelwright
