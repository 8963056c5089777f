/-!
# Floating point of 64 bits

A finite number of 64-bit floating point is a whole number of the least units that the format has,
of which at most 53 binary digits count. An operation has the exact result, rounded once: to the
nearest number that the format has, and to the even one of two that are as near.
-/

namespace Wheelwright

/-- A finite number: a sign and so many units of two to the power of -1074. -/
structure Binary64 where
  negative : Bool
  units : Nat
  deriving DecidableEq, Repr

namespace Binary64

/-! ## Rounding -/

/-- A quotient as the nearest natural number, a half going to the even one. -/
def halfEven (num den : Nat) : Nat :=
  let floor := num / den
  let twice := 2 * (num % den)
  if twice < den then floor
  else if den < twice then floor + 1
  else floor + floor % 2

/-- The rounded quotient is within a half of the quotient. -/
theorem halfEven_near (num : Nat) {den : Nat} (h : 0 < den) :
    2 * (halfEven num den * den) ≤ 2 * num + den ∧
      2 * num ≤ 2 * (halfEven num den * den) + den := by
  have parts := Nat.div_add_mod num den
  have small := Nat.mod_lt num h
  rw [Nat.mul_comm] at parts
  have succ : (num / den + 1) * den = num / den * den + den := by rw [Nat.add_mul, Nat.one_mul]
  unfold halfEven
  simp only
  split
  · omega
  · split
    · omega
    · rcases Nat.mod_two_eq_zero_or_one (num / den) with e | e <;> rw [e]
      · rw [Nat.add_zero]
        omega
      · omega

/-- The binary digits of a number that the format drops. -/
def dropped (n : Nat) : Nat := Nat.log2 n - 52

/-- A quotient of units as a number of units that the format has. -/
def round (num den : Nat) : Nat :=
  let step := Nat.shiftLeft 1 (dropped (num / den))
  halfEven num (den * step) * step

/-! ## Operations -/

/-- The units in one. -/
def unitsOfOne : Nat := Nat.shiftLeft 1 1074

/-- The least number of units that is no finite number. -/
def infinite : Nat := Nat.shiftLeft 1 2098

/-- The number nearest to a natural number of at most ten to the power of 308. -/
def ofNat (n : Nat) : Binary64 := ⟨false, round (n * unitsOfOne) 1⟩

/-- The product, if it is finite. -/
def mul? (x y : Binary64) : Option Binary64 :=
  let units := round (x.units * y.units) unitsOfOne
  if units < infinite then some ⟨x.negative != y.negative, units⟩ else none

/-- The quotient by a number that is at least one. -/
def divide (x y : Binary64) : Binary64 :=
  ⟨x.negative != y.negative, round (x.units * unitsOfOne) y.units⟩

/-- The number with the other sign. -/
def neg (x : Binary64) : Binary64 := { x with negative := !x.negative }

/-! ## Powers of ten -/

/-- The greatest power of ten that is a finite number. -/
def greatestPower : Nat := 308

/-- The number nearest to a power of ten. -/
def powerOfTen (k : Nat) : Binary64 := ofNat (Nat.pow 10 k)

/-- The number divided by a power of ten, the greatest one as often as it goes and then the rest. -/
def scaleDown (x : Binary64) (places : Nat) : Binary64 :=
  if x.units = 0 then x
  else if places ≤ greatestPower then x.divide (powerOfTen places)
  else scaleDown (x.divide (powerOfTen greatestPower)) (places - greatestPower)
  termination_by places
  decreasing_by
    simp only [greatestPower] at *
    omega

/-- The number times a power of ten, if it is finite. -/
def scale? (x : Binary64) (k : Int) : Option Binary64 :=
  if k < 0 then some (x.scaleDown (-k).toNat)
  else if x.units = 0 then some x
  else if k ≤ greatestPower then x.mul? (powerOfTen k.toNat)
  else none

end Binary64
end Wheelwright
