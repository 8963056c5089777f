import Wheelwright.Text.Utf8
/-!
# Numbers in archives

Archives keep numbers in a fixed number of bytes, the little end first. The main statement is
`read_write`: a number that fits is read back, and the bytes after it are left over.
-/

namespace Wheelwright.Little

/-- The least number that does not fit into so many bytes. -/
def bound : Nat → Nat
  | 0 => 1
  | width + 1 => 256 * bound width

/-- A number in `width` bytes. -/
def write : Nat → Nat → Bytes
  | 0, _ => []
  | width + 1, n => (n % 256).toUInt8 :: write width (n / 256)

/-- The number in the first `width` bytes, and the bytes after them. -/
def read : Nat → Bytes → Option (Nat × Bytes)
  | 0, bs => some (0, bs)
  | _ + 1, [] => none
  | width + 1, b :: bs =>
    match read width bs with
    | some (n, rest) => some (b.toNat + 256 * n, rest)
    | none => none

@[simp] theorem length_write (width n : Nat) : (write width n).length = width := by
  induction width generalizing n with
  | zero => rfl
  | succ width ih => simp [write, ih]

@[simp] theorem read_write (width n : Nat) (rest : Bytes) (h : n < bound width) :
    read width (write width n ++ rest) = some (n, rest) := by
  induction width generalizing n with
  | zero =>
    obtain rfl : n = 0 := Nat.lt_one_iff.1 h
    rfl
  | succ width ih =>
    have hn : n / 256 < bound width := by
      rw [Nat.div_lt_iff_lt_mul (by decide), Nat.mul_comm]
      exact h
    simp only [write, List.cons_append, read, ih _ hn]
    simp; omega

/-- What was read is what stands at the start of the bytes. -/
theorem eq_append_of_read {width n : Nat} {bs rest : Bytes} (h : read width bs = some (n, rest)) :
    bs = write width n ++ rest := by
  induction width generalizing n bs with
  | zero =>
    cases h
    rfl
  | succ width ih =>
    cases bs with
    | nil => cases h
    | cons b bs =>
      simp only [read] at h
      cases hr : read width bs with
      | none =>
        rw [hr] at h
        cases h
      | some found =>
        obtain ⟨m, rest'⟩ := found
        rw [hr] at h
        cases h
        have hb : b.toNat < 256 := b.toNat_lt
        have hlow : (b.toNat + 256 * m) % 256 = b.toNat := by omega
        have hhigh : (b.toNat + 256 * m) / 256 = m := by omega
        rw [ih hr, write, hlow, hhigh, Nat.toUInt8_eq, UInt8.ofNat_toNat]
        rfl

end Wheelwright.Little
