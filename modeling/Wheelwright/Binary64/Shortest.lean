import Wheelwright.Binary64
/-!
# The shortest decimal

A number of 64-bit floating point is written with as few decimal digits as are read back as the same
number, and of the decimals with so few digits as the nearest one. Grids of powers of ten are tried
from the coarsest to finer ones; on each, the two neighbours of the number are the only candidates.
-/

namespace Wheelwright

/-- So many times a power of ten. -/
structure Decimal where
  digits : Nat
  exponent : Int
  deriving DecidableEq, Repr

namespace Decimal

/-- The units of the floating point number nearest to a decimal. -/
def units (d : Decimal) : Nat :=
  Binary64.round (d.digits * Nat.pow 10 d.exponent.toNat * Binary64.unitsOfOne)
    (Nat.pow 10 (-d.exponent).toNat)

/-! ## Selection -/

/-- The neighbour on the grid of a power of ten that is read back as so many units, the nearer one
if both are. -/
def onGrid? (units : Nat) (exponent : Int) : Option Decimal :=
  let num := units * Nat.pow 10 (-exponent).toNat
  let den := Binary64.unitsOfOne * Nat.pow 10 exponent.toNat
  let below := num / den
  let nearer := Binary64.halfEven num den
  [nearer, if nearer = below then below + 1 else below].map (⟨·, exponent⟩)
    |>.find? (·.units = units)

/-- The power of ten of a grid that is as coarse as any on which so many units have a neighbour
other than zero that could be read back. -/
def scaleOf (units : Nat) : Int := ((Nat.log2 units : Int) - 1073) * 30103 / 100000 + 1

/-- The shortest decimal that is read back as so many units, or all the digits. -/
def shortest (units : Nat) : Decimal :=
  if units = 0 then ⟨0, 0⟩
  else match (List.range 20).findSome? fun (i : Nat) => onGrid? units (scaleOf units - i) with
    | some d => d
    | none => ⟨units * Nat.pow 5 1074, -1074⟩

/-! ## Layout -/

/-- The decimal with a point, and with an exponent unless the first digit's place is from five
behind the point to sixteen before it. -/
def text (d : Decimal) : List Char :=
  let digits := d.digits.repr.toList
  let point : Int := digits.length + d.exponent
  if 0 ≤ d.exponent && point ≤ 16 then
    digits ++ List.replicate d.exponent.toNat '0' ++ ['.', '0']
  else if 0 < point && point ≤ 16 then
    digits.take point.toNat ++ '.' :: digits.drop point.toNat
  else if -5 < point && point ≤ 0 then
    '0' :: '.' :: List.replicate (-point).toNat '0' ++ digits
  else
    let fraction := if digits.length = 1 then [] else '.' :: digits.drop 1
    digits.take 1 ++ fraction ++ 'e' :: (point - 1).repr.toList

end Decimal

/-- The number in decimal. -/
def Binary64.text (x : Binary64) : List Char :=
  (if x.negative then ['-'] else []) ++ (Decimal.shortest x.units).text

end Wheelwright
