import Mathlib.Algebra.Group.Nat.Defs
/-!
# Bits and alphabets

A number of some width as its bits, the highest first. The main statement is `ofNat_join`: a number
that is put together from two has the bits of the one and then those of the other. A character
stands for the bits of its place in an alphabet.
-/

namespace Wheelwright.Bits

/-- The lowest bits of a number, as many as it is wide, the highest of them first. -/
def ofNat : Nat → Nat → List Bool
  | 0, _ => []
  | width + 1, n => n.testBit width :: ofNat width n

/-- The highest bits are those of a quotient. -/
theorem ofNat_add (high low n : Nat) :
    ofNat (high + low) n = ofNat high (n / 2 ^ low) ++ ofNat low n := by
  induction high with
  | zero => rw [Nat.zero_add, ofNat, List.nil_append]
  | succ high ih =>
    rw [Nat.add_right_comm, ofNat, ofNat, ih, Nat.testBit_div_two_pow, List.cons_append]

/-- The lowest bits are those of a remainder. -/
theorem ofNat_mod {width k : Nat} (h : width ≤ k) (n : Nat) :
    ofNat width (n % 2 ^ k) = ofNat width n := by
  induction width with
  | zero => rfl
  | succ width ih =>
    rw [ofNat, ofNat, ih (by omega), Nat.testBit_mod_two_pow, decide_eq_true (by omega),
      Bool.true_and]

theorem ofNat_join {high low y : Nat} (h : y < 2 ^ low) (x : Nat) :
    ofNat (high + low) (x * 2 ^ low + y) = ofNat high x ++ ofNat low y := by
  have hpos : 0 < 2 ^ low := Nat.two_pow_pos low
  have hdiv : (x * 2 ^ low + y) / 2 ^ low = x := by
    rw [Nat.mul_comm, Nat.mul_add_div hpos, Nat.div_eq_of_lt h, Nat.add_zero]
  have hmod : (x * 2 ^ low + y) % 2 ^ low = y := by
    rw [Nat.mul_comm, Nat.mul_add_mod, Nat.mod_eq_of_lt h]
  rw [ofNat_add, hdiv, ← ofNat_mod (Nat.le_refl low) (x * 2 ^ low + y), hmod]

/-! ## Characters of an alphabet -/

/-- The bits that a character of an alphabet stands for. -/
def ofChar (width : Nat) (alphabet : List Char) (c : Char) : List Bool :=
  ofNat width ((alphabet.idxOf? c).getD 0)

theorem ofChar_of_idxOf? {alphabet : List Char} {c : Char} {n : Nat}
    (h : alphabet.idxOf? c = some n) (width : Nat) : ofChar width alphabet c = ofNat width n := by
  rw [ofChar, h, Option.getD_some]

end Wheelwright.Bits
