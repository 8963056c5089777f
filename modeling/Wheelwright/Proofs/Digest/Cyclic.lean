import Mathlib.Algebra.Polynomial.Div
import Mathlib.Algebra.Field.ZMod
import Mathlib.Data.Nat.Bitwise
import Mathlib.Tactic.ComputeDegree
import Mathlib.Tactic.LinearCombination
import Wheelwright.Digest.Checksum
/-!
# Which number is the check value of a message

The check value said without an algorithm, in the terms of the standard: the bits of a message are
the coefficients of a polynomial over the field of two elements, and what is left of it when it is
divided by the generator has the bits of the check value, inverted. The register of the program is
such a polynomial as well, and with each byte it moves on by eight places (`generator_dvd_feed`).
The main statement is `toNat_crc32`: the number that is computed is the check value.
-/

namespace Wheelwright.Checksum

open Polynomial

/-! ## The standard -/

/-- The polynomial that has bits for its coefficients, that of the highest power first. -/
noncomputable def polynomial : List Bool → (ZMod 2)[X]
  | [] => 0
  | bit :: bits => C (bit.toNat : ZMod 2) * X ^ bits.length + polynomial bits

/-- The lowest bits of a number in the order in which they are sent, the lowest first. -/
def sent (width n : Nat) : List Bool := (List.range width).map n.testBit

/-- The bits of a message. -/
def bits (message : Bytes) : List Bool := message.flatMap fun b => sent 8 b.toNat

/-- The polynomial that messages are divided by. -/
noncomputable def generator : (ZMod 2)[X] :=
  X ^ 32 + X ^ 26 + X ^ 23 + X ^ 22 + X ^ 16 + X ^ 12 + X ^ 11 + X ^ 10 + X ^ 8 + X ^ 7 + X ^ 5 +
    X ^ 4 + X ^ 2 + X + 1

/-- What is left of a message with room for 32 bits behind it, the first 32 bits of all this
inverted. -/
noncomputable def remainder (message : Bytes) : (ZMod 2)[X] :=
  (polynomial (bits message) * X ^ 32 +
    polynomial (List.replicate 32 true) * X ^ (bits message).length) %ₘ generator

/-- The number that is sent behind a message: the coefficients of the remainder, inverted. -/
noncomputable def checkValue (message : Bytes) : Nat :=
  Nat.ofBits fun i : Fin 32 => decide ((remainder message).coeff (31 - i) = 0)

/-! ## Polynomials of bits -/

theorem polynomial_append (a b : List Bool) :
    polynomial (a ++ b) = polynomial a * X ^ b.length + polynomial b := by
  induction a with
  | nil => simp [polynomial]
  | cons bit a ih =>
    rw [List.cons_append, polynomial, polynomial, ih, List.length_append, pow_add]
    ring

theorem polynomial_replicate_false (n : Nat) : polynomial (List.replicate n false) = 0 := by
  induction n with
  | zero => rfl
  | succ n ih => simp [List.replicate_succ, polynomial, ih]

theorem coeff_polynomial (bits : List Bool) (k : Nat) :
    (polynomial bits).coeff k = ((bits.reverse.getD k false).toNat : ZMod 2) := by
  induction bits with
  | nil => simp [polynomial]
  | cons bit bits ih =>
    rw [polynomial, coeff_add, coeff_C_mul_X_pow, ih, List.reverse_cons]
    rcases Nat.lt_trichotomy k bits.length with hk | rfl | hk
    · rw [if_neg (Nat.ne_of_lt hk), zero_add, List.getD_append _ _ _ _ (by simpa using hk)]
    · simp
    · rw [if_neg (Nat.ne_of_gt hk), zero_add]
      simp [hk, Nat.le_of_lt hk]

theorem degree_polynomial_lt (bits : List Bool) : (polynomial bits).degree < bits.length := by
  rw [degree_lt_iff_coeff_zero]
  intro k hk
  rw [coeff_polynomial, List.getD_eq_default _ _ (by simpa using hk)]
  rfl

@[simp] theorem length_sent (width n : Nat) : (sent width n).length = width := by simp [sent]

theorem coeff_sent {width i : Nat} (n : Nat) (h : i < width) :
    (polynomial (sent width n)).coeff (width - 1 - i) = ((n.testBit i).toNat : ZMod 2) := by
  have hi : width - 1 - (width - 1 - i) = i := by omega
  rw [coeff_polynomial, List.getD_eq_getElem _ _ (by simp; omega), List.getElem_reverse]
  simp [sent, hi]

theorem polynomial_sent_xor (width m n : Nat) :
    polynomial (sent width (m ^^^ n)) =
      polynomial (sent width m) + polynomial (sent width n) := by
  ext k
  by_cases hk : k < width
  · obtain ⟨i, hi, rfl⟩ : ∃ i, i < width ∧ width - 1 - i = k := ⟨width - 1 - k, by omega, by omega⟩
    rw [coeff_add, coeff_sent _ hi, coeff_sent _ hi, coeff_sent _ hi, Nat.testBit_xor]
    cases m.testBit i <;> cases n.testBit i <;> decide
  · have hz : ∀ x, (polynomial (sent width x)).coeff k = 0 := by
      intro x
      have hd := degree_polynomial_lt (sent width x)
      rw [degree_lt_iff_coeff_zero, length_sent] at hd
      exact hd k (Nat.le_of_not_lt hk)
    rw [coeff_add, hz, hz, hz, add_zero]

/-- A bit that is sent first, and the others. -/
theorem sent_succ (width n : Nat) : sent (width + 1) n = n.testBit 0 :: sent width (n / 2) := by
  rw [sent, List.range_succ_eq_map, List.map_cons, List.map_map, sent]
  congr 1
  refine List.map_congr_left fun i _ => ?_
  rw [Function.comp_apply, Nat.testBit_succ]

/-- Zeros are sent behind a number that is less wide. -/
theorem sent_add {width n : Nat} (h : n < 2 ^ width) (more : Nat) :
    sent (width + more) n = sent width n ++ List.replicate more false := by
  rw [sent, List.range_add, List.map_append, List.map_map, ← sent]
  congr 1
  rw [List.eq_replicate_iff]
  refine ⟨by simp, fun bit hb => ?_⟩
  obtain ⟨i, -, rfl⟩ := List.mem_map.1 hb
  have hpow : 2 ^ width ≤ 2 ^ (width + i) := Nat.pow_le_pow_right (by decide) (Nat.le_add_right _ _)
  exact Nat.testBit_lt_two_pow (Nat.lt_of_lt_of_le h hpow)

/-! ## The generator -/

theorem generator_monic : generator.Monic := by
  unfold generator
  monicity!

theorem degree_generator : generator.degree = 32 := by
  unfold generator
  compute_degree!

/-- The generator is written in the program without its highest power. -/
theorem polynomial_sent_generator :
    polynomial (sent 32 0xEDB88320) = generator - X ^ 32 := by
  have hs : sent 32 0xEDB88320 = [false, false, false, false, false, true, false, false, true, true,
      false, false, false, false, false, true, false, false, false, true, true, true, false, true,
      true, false, true, true, false, true, true, true] := by decide
  rw [hs]
  simp only [polynomial, generator, List.length_cons, List.length_nil]
  simp
  ring

/-! ## The register -/

/-- The register as a polynomial. -/
noncomputable def register (r : UInt32) : (ZMod 2)[X] := polynomial (sent 32 r.toNat)

theorem register_xor (r s : UInt32) : register (r ^^^ s) = register r + register s := by
  rw [register, UInt32.toNat_xor, polynomial_sent_xor]
  rfl

/-- A byte in the register stands at its highest powers. -/
theorem register_toUInt32 (b : UInt8) :
    register b.toUInt32 = polynomial (sent 8 b.toNat) * X ^ 24 := by
  have hs := sent_add b.toNat_lt 24
  rw [register, UInt8.toNat_toUInt32, hs, polynomial_append, polynomial_replicate_false,
    List.length_replicate, add_zero]

theorem toNat_shift (r : UInt32) :
    (shift r).toNat = if r.toNat.testBit 0 then r.toNat / 2 ^^^ 0xEDB88320 else r.toNat / 2 := by
  have hbit : r &&& 1 = 1 ↔ r.toNat.testBit 0 = true := by
    rw [← UInt32.toNat_inj, UInt32.toNat_and]
    show r.toNat &&& 1 = 1 ↔ _
    rw [Nat.and_one_is_mod, Nat.testBit_zero, decide_eq_true_eq]
  have hhalf : (r >>> 1).toNat = r.toNat / 2 := by
    rw [UInt32.toNat_shiftRight]
    show r.toNat >>> 1 = _
    rw [Nat.shiftRight_one]
  unfold shift
  by_cases h : r &&& 1 = 1
  · rw [if_pos h, if_pos (hbit.1 h), UInt32.toNat_xor, hhalf]
    rfl
  · rw [if_neg h, if_neg (mt hbit.2 h), hhalf]

/-- The register moves on by one place: what leaves it is taken back by the generator. -/
theorem generator_dvd_shift (r : UInt32) : generator ∣ X * register r - register (shift r) := by
  have htwo : (2 : (ZMod 2)[X]) = 0 := by
    have h : (2 : ZMod 2) = 0 := rfl
    rw [← C_ofNat, h, C_0]
  have hlt : r.toNat / 2 < 2 ^ 31 := by
    have h := r.toNat_lt
    omega
  have hhalf : polynomial (sent 32 (r.toNat / 2)) = polynomial (sent 31 (r.toNat / 2)) * X := by
    rw [sent_add hlt 1, polynomial_append, polynomial_replicate_false,
      List.length_replicate, pow_one, add_zero]
  rw [register, register, toNat_shift, sent_succ 31, polynomial, length_sent]
  cases r.toNat.testBit 0 with
  | false =>
    rw [if_neg Bool.false_ne_true, hhalf]
    simp [mul_comm]
  | true =>
    rw [if_pos rfl, polynomial_sent_xor, hhalf, polynomial_sent_generator]
    refine ⟨-1, ?_⟩
    simp only [Bool.toNat_true, Nat.cast_one, map_one]
    linear_combination X ^ 32 * htwo

/-- So it does by several places. -/
theorem generator_dvd_iterate (k : Nat) (r : UInt32) :
    generator ∣ X ^ k * register r - register (shift^[k] r) := by
  induction k with
  | zero => simp
  | succ k ih =>
    have hs := generator_dvd_shift (shift^[k] r)
    have hstep : X ^ (k + 1) * register r - register (shift^[k + 1] r) =
        X * (X ^ k * register r - register (shift^[k] r)) +
          (X * register (shift^[k] r) - register (shift (shift^[k] r))) := by
      rw [Function.iterate_succ_apply']
      ring
    rw [hstep]
    exact dvd_add (ih.mul_left X) hs

/-- With a byte it moves on by eight places, and the byte is added behind them. -/
theorem generator_dvd_feed (r : UInt32) (b : UInt8) :
    generator ∣ X ^ 8 * register r + polynomial (sent 8 b.toNat) * X ^ 32 -
      register (feed r b) := by
  have h := generator_dvd_iterate 8 (r ^^^ b.toUInt32)
  rw [register_xor, register_toUInt32] at h
  have hfeed : shift^[8] (r ^^^ b.toUInt32) = feed r b := rfl
  rw [hfeed] at h
  convert h using 2
  ring

theorem bits_cons (b : UInt8) (message : Bytes) :
    bits (b :: message) = sent 8 b.toNat ++ bits message := rfl

/-- With a message the register moves on by its length, and the message is added behind it. -/
theorem generator_dvd_foldl (message : Bytes) (r : UInt32) :
    generator ∣ polynomial (bits message) * X ^ 32 + register r * X ^ (bits message).length -
      register (message.foldl feed r) := by
  induction message generalizing r with
  | nil => simp [bits, polynomial]
  | cons b message ih =>
    have hb := (generator_dvd_feed r b).mul_left (X ^ (bits message).length)
    have h := dvd_add hb (ih (feed r b))
    rw [bits_cons, polynomial_append, List.length_append, length_sent, List.foldl_cons, pow_add]
    convert h using 1
    ring

/-- What is left in the register is the remainder. -/
theorem remainder_eq (message : Bytes) :
    remainder message = register (message.foldl feed 0xFFFFFFFF) := by
  have hones : register 0xFFFFFFFF = polynomial (List.replicate 32 true) := by
    have hs : sent 32 (0xFFFFFFFF : UInt32).toNat = List.replicate 32 true := by decide
    rw [register, hs]
  have hdegree : (register (message.foldl feed 0xFFFFFFFF)).degree < generator.degree := by
    have h := degree_polynomial_lt (sent 32 (message.foldl feed 0xFFFFFFFF).toNat)
    rw [length_sent] at h
    rw [degree_generator]
    exact h
  have hdvd := generator_dvd_foldl message 0xFFFFFFFF
  rw [hones] at hdvd
  rw [remainder, modByMonic_eq_of_dvd_sub generator_monic hdvd,
    (modByMonic_eq_self_iff generator_monic).2 hdegree]

/-- The number that is computed for a message is its check value. -/
theorem toNat_crc32 (message : Bytes) : (crc32 message).toNat = checkValue message := by
  have hlt := (crc32 message).toNat_lt
  have hbits : (fun i : Fin 32 => decide ((remainder message).coeff (31 - i) = 0)) =
      fun i : Fin 32 => (crc32 message).toNat.testBit i := by
    funext i
    have hones : (0xFFFFFFFF : UInt32).toNat.testBit i = true := by
      fin_cases i <;> rfl
    rw [remainder_eq, register, coeff_sent _ i.isLt, crc32, UInt32.toNat_xor, Nat.testBit_xor,
      hones]
    cases (message.foldl feed 0xFFFFFFFF).toNat.testBit i <;> decide
  rw [checkValue, hbits, Nat.ofBits_testBit, Nat.mod_eq_of_lt hlt]

/-- The digits from one to nine. -/
example : crc32 (Utf8.encode "123456789") = 0xCBF43926 := by decide +kernel

end Wheelwright.Checksum
