import Wheelwright.Text.Utf8
/-!
# Hexadecimal text

Two digits a byte, the high one first, in lower case. `encode` writes, `decode?` reads back what
`encode` writes and nothing else.
-/

namespace Wheelwright.Hex

/-- The sixteen digits in order. -/
def digits : List Char := "0123456789abcdef".toList

/-- The digit with a value below sixteen. -/
def digit (n : Nat) : Char := digits.getD n '0'

/-- The value of a digit. -/
def value? (c : Char) : Option Nat := digits.idxOf? c

/-- Two digits for each byte. -/
def encode (bs : Bytes) : List Char :=
  bs.flatMap fun b => [digit (b.toNat / 16), digit (b.toNat % 16)]

/-- The bytes that pairs of digits stand for. -/
def decode? : List Char → Option Bytes
  | [] => some []
  | [_] => none
  | h :: l :: rest => do
    let high ← value? h
    let low ← value? l
    let bytes ← decode? rest
    return (high * 16 + low).toUInt8 :: bytes

/-- A number below `16 ^ width` in exactly `width` digits. -/
def fixed : Nat → Nat → List Char
  | 0, _ => []
  | width + 1, n => fixed width (n / 16) ++ [digit (n % 16)]

/-- A number in as few digits as it needs, at least one. -/
def shortest (n : Nat) : List Char := Nat.toDigits 16 n

/-! ## Reading what was written -/

private theorem value?_digit_fin : ∀ n : Fin 16, value? (digit n) = some n.val := by decide

theorem value?_digit {n : Nat} (h : n < 16) : value? (digit n) = some n := value?_digit_fin ⟨n, h⟩

/-- Bytes are read back from their digits. -/
@[simp] theorem decode?_encode (bs : Bytes) : decode? (encode bs) = some bs := by
  induction bs with
  | nil => rfl
  | cons b bs ih =>
    have hb : b.toNat < 256 := b.toNat_lt
    have hn : b.toNat / 16 * 16 + b.toNat % 16 = b.toNat := by omega
    rw [encode] at ih
    simp only [encode, List.flatMap_cons, List.cons_append, List.nil_append, decode?,
      value?_digit (show b.toNat / 16 < 16 by omega),
      value?_digit (show b.toNat % 16 < 16 by omega), ih, hn, Option.bind_eq_bind, Option.bind_some]
    rw [Nat.toUInt8_eq, UInt8.ofNat_toNat]
    rfl

@[simp] theorem length_encode (bs : Bytes) : (encode bs).length = 2 * bs.length := by
  induction bs with
  | nil => rfl
  | cons b bs ih =>
    rw [encode] at ih
    simp [encode, ih]
    omega

end Wheelwright.Hex
