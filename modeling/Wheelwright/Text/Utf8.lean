/-!
# UTF-8

Text goes into files, paths and archives as bytes. `encode` writes it, and `scan` reads bytes of
any kind: every character that the bytes spell, and a gap for each maximal stretch that begins a
character and does not complete one. `decode?` accepts the readings without a gap, `lossy` shows a
gap as U+FFFD.

The main statements are `scan_encode` and `decode?_encode`: text that was written is read back.
-/

namespace Wheelwright

/-- Raw file content. -/
abbrev Bytes := List UInt8

namespace Utf8

/-! ## Writing -/

/-- The bytes of one character, one to four of them. -/
def encodeChar (c : Char) : Bytes :=
  let n := c.toNat
  if n < 0x80 then [n.toUInt8]
  else if n < 0x800 then [(0xC0 + n / 64).toUInt8, (0x80 + n % 64).toUInt8]
  else if n < 0x10000 then
    [(0xE0 + n / 4096).toUInt8, (0x80 + n / 64 % 64).toUInt8, (0x80 + n % 64).toUInt8]
  else
    [(0xF0 + n / 262144).toUInt8, (0x80 + n / 4096 % 64).toUInt8, (0x80 + n / 64 % 64).toUInt8,
      (0x80 + n % 64).toUInt8]

/-- The bytes of a text. -/
def encode (s : String) : Bytes := s.toList.flatMap encodeChar

/-! ## Reading -/

/-- A byte that continues a character, `0x80` to `0xBF`. -/
def isTail (b : UInt8) : Bool := 0x80 ≤ b.toNat && b.toNat < 0xC0

/-- Whether `b` may follow the leading byte `a` of a character of three bytes: a tail byte that
neither makes the character shorter than it is written nor lands among the surrogates. -/
def isSecondOfThree (a b : UInt8) : Bool :=
  0xE0 ≤ a.toNat && a.toNat < 0xF0 && isTail b &&
    (a.toNat != 0xE0 || 0xA0 ≤ b.toNat) && (a.toNat != 0xED || b.toNat < 0xA0)

/-- Whether `b` may follow the leading byte `a` of a character of four bytes: a tail byte that keeps
the character between U+10000 and U+10FFFF. -/
def isSecondOfFour (a b : UInt8) : Bool :=
  0xF0 ≤ a.toNat && a.toNat < 0xF5 && isTail b &&
    (a.toNat != 0xF0 || 0x90 ≤ b.toNat) && (a.toNat != 0xF4 || b.toNat < 0x90)

/-- The character of two bytes. -/
def twoBytes (a b : UInt8) : Char := Char.ofNat ((a.toNat - 0xC0) * 64 + (b.toNat - 0x80))

/-- The character of three bytes. -/
def threeBytes (a b c : UInt8) : Char :=
  Char.ofNat ((a.toNat - 0xE0) * 4096 + (b.toNat - 0x80) * 64 + (c.toNat - 0x80))

/-- The character of four bytes. -/
def fourBytes (a b c d : UInt8) : Char :=
  Char.ofNat ((a.toNat - 0xF0) * 262144 + (b.toNat - 0x80) * 4096 + (c.toNat - 0x80) * 64 +
    (d.toNat - 0x80))

/-- Everything that the bytes spell, in order: a character, or `none` for a maximal stretch that
begins a character and does not complete one. -/
def scan : Bytes → List (Option Char)
  | [] => []
  | a :: r =>
    if a.toNat < 0x80 then some (Char.ofNat a.toNat) :: scan r
    else match r with
      | [] => [none]
      | b :: r₁ =>
        if 0xC2 ≤ a.toNat && a.toNat < 0xE0 && isTail b then some (twoBytes a b) :: scan r₁
        else if isSecondOfThree a b then
          match r₁ with
          | [] => [none]
          | c :: r₂ =>
            if isTail c then some (threeBytes a b c) :: scan r₂ else none :: scan (c :: r₂)
        else if isSecondOfFour a b then
          match r₁ with
          | [] => [none]
          | c :: r₂ =>
            if isTail c then
              match r₂ with
              | [] => [none]
              | d :: r₃ =>
                if isTail d then some (fourBytes a b c d) :: scan r₃ else none :: scan (d :: r₃)
            else none :: scan (c :: r₂)
        else none :: scan (b :: r₁)

/-- The text that the bytes spell, if they spell nothing else. -/
def decode? (bs : Bytes) : Option String := ((scan bs).mapM id).map String.ofList

/-- The text that the bytes spell, with U+FFFD for every gap. -/
def lossy (bs : Bytes) : String := String.ofList ((scan bs).map (·.getD '\uFFFD'))

/-! ## Reading what was written -/

theorem toNat_toUInt8_of_lt {n : Nat} (h : n < 256) : n.toUInt8.toNat = n := by
  simp [Nat.mod_eq_of_lt h]

/-- A character that was written is the next thing that is read. -/
theorem scan_encodeChar (c : Char) (r : Bytes) :
    scan (encodeChar c ++ r) = some c :: scan r := by
  have hv : c.toNat < 55296 ∨ 57343 < c.toNat ∧ c.toNat < 1114112 := c.valid
  have hc : Char.ofNat c.toNat = c := Char.ofNat_toNat c
  simp only [encodeChar]
  split
  · next h =>
    have ha := toNat_toUInt8_of_lt (show c.toNat < 256 by omega)
    rw [List.cons_append, List.nil_append, scan.eq_def]
    simp only [ha, h, hc, if_true]
  · split
    · have ha := toNat_toUInt8_of_lt (show 0xC0 + c.toNat / 64 < 256 by omega)
      have hb := toNat_toUInt8_of_lt (show 0x80 + c.toNat % 64 < 256 by omega)
      have hx : (0xC0 + c.toNat / 64 - 0xC0) * 64 + (0x80 + c.toNat % 64 - 0x80) = c.toNat := by
        omega
      rw [scan.eq_def]
      simp only [List.cons_append, List.nil_append, isTail, twoBytes, ha, hb, Bool.and_eq_true,
        decide_eq_true_eq]
      rw [if_neg (by omega), if_pos (by omega), hx, hc]
    · split
      · have ha := toNat_toUInt8_of_lt (show 0xE0 + c.toNat / 4096 < 256 by omega)
        have hb := toNat_toUInt8_of_lt (show 0x80 + c.toNat / 64 % 64 < 256 by omega)
        have hd := toNat_toUInt8_of_lt (show 0x80 + c.toNat % 64 < 256 by omega)
        have hx : (0xE0 + c.toNat / 4096 - 0xE0) * 4096 + (0x80 + c.toNat / 64 % 64 - 0x80) * 64 +
            (0x80 + c.toNat % 64 - 0x80) = c.toNat := by omega
        rw [scan.eq_def]
        simp only [List.cons_append, List.nil_append, isTail, isSecondOfThree, threeBytes,
          ha, hb, hd, Bool.and_eq_true, Bool.or_eq_true, bne_iff_ne, decide_eq_true_eq]
        rw [if_neg (by omega), if_neg (by omega), if_pos (by omega), if_pos (by omega), hx, hc]
      · have ha := toNat_toUInt8_of_lt (show 0xF0 + c.toNat / 262144 < 256 by omega)
        have hb := toNat_toUInt8_of_lt (show 0x80 + c.toNat / 4096 % 64 < 256 by omega)
        have hd := toNat_toUInt8_of_lt (show 0x80 + c.toNat / 64 % 64 < 256 by omega)
        have he := toNat_toUInt8_of_lt (show 0x80 + c.toNat % 64 < 256 by omega)
        have hx : (0xF0 + c.toNat / 262144 - 0xF0) * 262144 +
            (0x80 + c.toNat / 4096 % 64 - 0x80) * 4096 + (0x80 + c.toNat / 64 % 64 - 0x80) * 64 +
            (0x80 + c.toNat % 64 - 0x80) = c.toNat := by omega
        rw [scan.eq_def]
        simp only [List.cons_append, List.nil_append, isTail, isSecondOfThree, isSecondOfFour,
          fourBytes, ha, hb, hd, he, Bool.and_eq_true, Bool.or_eq_true, bne_iff_ne,
          decide_eq_true_eq]
        rw [if_neg (by omega), if_neg (by omega), if_neg (by omega), if_pos (by omega),
          if_pos (by omega), if_pos (by omega), hx, hc]

/-- Characters that were written are read back, whatever follows them. -/
theorem scan_encode (l : List Char) (r : Bytes) :
    scan (l.flatMap encodeChar ++ r) = l.map some ++ scan r := by
  induction l with
  | nil => rfl
  | cons c l ih => simp [List.append_assoc, scan_encodeChar, ih]

/-- Text that was written is read back. -/
@[simp] theorem decode?_encode (s : String) : decode? (encode s) = some s := by
  have h := scan_encode s.toList []
  simp only [List.append_nil] at h
  have hid (l : List Char) : List.mapM some l = some l := by
    induction l with
    | nil => rfl
    | cons c l ih => simp [List.mapM_cons, ih]
  simp [decode?, encode, h, scan, hid]

/-- Different texts are written differently. -/
theorem encode_injective {s t : String} (h : encode s = encode t) : s = t := by
  have hd := congrArg decode? h
  rwa [decode?_encode, decode?_encode, Option.some.injEq] at hd

/-- Text that was written shows as it is. -/
@[simp] theorem lossy_encode (s : String) : lossy (encode s) = s := by
  have h := scan_encode s.toList []
  rw [List.append_nil] at h
  simp [lossy, encode, h, scan, Function.comp_def]

/-- Writing a text after another writes one after the other. -/
@[simp] theorem encode_append (s t : String) : encode (s ++ t) = encode s ++ encode t := by
  simp [encode]

end Utf8
end Wheelwright
