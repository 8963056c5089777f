import Wheelwright.Text.Utf8
/-!
# Base64 for paths and manifests

The base64 alphabet that is safe in file names, `-` and `_` in the last two places, without padding.
Three bytes become four characters; one or two bytes at the end become two or three.
-/

namespace Wheelwright.Base64Url

/-- The alphabet, six bits a character. -/
def alphabet : List Char :=
  "ABCDEFGHIJKLMNOPQRSTUVWXYZabcdefghijklmnopqrstuvwxyz0123456789-_".toList

/-- The character for a value below sixty-four. -/
def char (n : Nat) : Char := alphabet.getD n 'A'

/-- The value of a character of the alphabet. -/
def value? (c : Char) : Option Nat := alphabet.idxOf? c

/-- Four characters for three bytes, three for two, two for one. -/
def encode : Bytes → List Char
  | [] => []
  | [a] => [char (a.toNat / 4), char (a.toNat % 4 * 16)]
  | [a, b] =>
    [char (a.toNat / 4), char (a.toNat % 4 * 16 + b.toNat / 16), char (b.toNat % 16 * 4)]
  | a :: b :: c :: rest =>
    [char (a.toNat / 4), char (a.toNat % 4 * 16 + b.toNat / 16),
      char (b.toNat % 16 * 4 + c.toNat / 64), char (c.toNat % 64)] ++ encode rest

/-- The bytes that a text of the alphabet stands for; no length leaves a single character over, and
unused bits are zero. -/
def decode? : List Char → Option Bytes
  | [] => some []
  | [_] => none
  | [p, q] => do
    let p ← value? p
    let q ← value? q
    if q % 16 = 0 then return [(p * 4 + q / 16).toUInt8] else none
  | [p, q, r] => do
    let p ← value? p
    let q ← value? q
    let r ← value? r
    if r % 4 = 0 then return [(p * 4 + q / 16).toUInt8, (q % 16 * 16 + r / 4).toUInt8] else none
  | p :: q :: r :: s :: rest => do
    let p ← value? p
    let q ← value? q
    let r ← value? r
    let s ← value? s
    let bytes ← decode? rest
    return (p * 4 + q / 16).toUInt8 :: (q % 16 * 16 + r / 4).toUInt8 ::
      (r % 4 * 64 + s).toUInt8 :: bytes

theorem length_encode (bs : Bytes) : (encode bs).length = (4 * bs.length + 2) / 3 := by
  fun_induction encode bs with
  | case1 => rfl
  | case2 a => simp
  | case3 a b => simp
  | case4 a b c rest ih =>
    rw [List.length_append, ih]
    simp only [List.length_cons, List.length_nil]
    omega

/-! ## Reading what was written -/

private theorem value?_char_fin : ∀ n : Fin 64, value? (char n) = some n.val := by decide

theorem value?_char {n : Nat} (h : n < 64) : value? (char n) = some n := value?_char_fin ⟨n, h⟩

/-- Bytes are read back from their text. -/
@[simp] theorem decode?_encode (bs : Bytes) : decode? (encode bs) = some bs := by
  fun_induction encode bs with
  | case1 => rfl
  | case2 a =>
    have ha : a.toNat < 256 := a.toNat_lt
    have hn : a.toNat / 4 * 4 + a.toNat % 4 * 16 / 16 = a.toNat := by omega
    simp only [decode?, value?_char (show a.toNat / 4 < 64 by omega),
      value?_char (show a.toNat % 4 * 16 < 64 by omega), hn, Option.bind_eq_bind, Option.bind_some,
      Nat.toUInt8_eq, UInt8.ofNat_toNat]
    exact if_pos (by omega)
  | case3 a b =>
    have ha : a.toNat < 256 := a.toNat_lt
    have hb : b.toNat < 256 := b.toNat_lt
    have h₁ : a.toNat / 4 * 4 + (a.toNat % 4 * 16 + b.toNat / 16) / 16 = a.toNat := by omega
    have h₂ : (a.toNat % 4 * 16 + b.toNat / 16) % 16 * 16 + b.toNat % 16 * 4 / 4 = b.toNat := by
      omega
    simp only [decode?, value?_char (show a.toNat / 4 < 64 by omega),
      value?_char (show a.toNat % 4 * 16 + b.toNat / 16 < 64 by omega),
      value?_char (show b.toNat % 16 * 4 < 64 by omega), h₁, h₂, Option.bind_eq_bind,
      Option.bind_some, Nat.toUInt8_eq, UInt8.ofNat_toNat]
    exact if_pos (by omega)
  | case4 a b c rest ih =>
    have ha : a.toNat < 256 := a.toNat_lt
    have hb : b.toNat < 256 := b.toNat_lt
    have hc : c.toNat < 256 := c.toNat_lt
    have h₁ : a.toNat / 4 * 4 + (a.toNat % 4 * 16 + b.toNat / 16) / 16 = a.toNat := by omega
    have h₂ : (a.toNat % 4 * 16 + b.toNat / 16) % 16 * 16 + (b.toNat % 16 * 4 + c.toNat / 64) / 4 =
        b.toNat := by omega
    have h₃ : (b.toNat % 16 * 4 + c.toNat / 64) % 4 * 64 + c.toNat % 64 = c.toNat := by omega
    simp only [decode?, value?_char (show a.toNat / 4 < 64 by omega),
      value?_char (show a.toNat % 4 * 16 + b.toNat / 16 < 64 by omega),
      value?_char (show b.toNat % 16 * 4 + c.toNat / 64 < 64 by omega),
      value?_char (show c.toNat % 64 < 64 by omega), ih, h₁, h₂, h₃, List.cons_append,
      List.nil_append, Option.bind_eq_bind, Option.bind_some, Nat.toUInt8_eq, UInt8.ofNat_toNat]
    rfl

end Wheelwright.Base64Url
