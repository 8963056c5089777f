import Mathlib.Algebra.Group.Nat.Defs
import Wheelwright.Size
/-!
# What a shown size says

A size is cut off, not rounded: what is shown is the number of tenths of the unit that fit into the
size (`floor_of`), so that the size lies in the interval of one tenth that begins there. Larger
sizes are never shown as less, also where the unit changes (`quantity_of_le`): what is shown of the
smaller one is at most its size, and that is less than one of the larger unit.

Sixty-four bits are enough on the way: a machine that keeps no more comes to the same
(`ofWord_eq`). The main statement is `read_formatSize`.
-/

namespace Wheelwright

namespace SizeUnit

theorem bytes_pos (unit : SizeUnit) : 0 < unit.bytes := by cases unit <;> decide

theorem bytes_le (unit : SizeUnit) : unit.bytes ≤ 1048576 := by cases unit <;> decide

/-- Each unit is for the sizes from one of it up to one of the next. -/
theorem of_cases (size : Nat) :
    size < 1024 ∧ SizeUnit.of size = .byte ∨
      1024 ≤ size ∧ size < 1048576 ∧ SizeUnit.of size = .kilobyte ∨
        1048576 ≤ size ∧ SizeUnit.of size = .megabyte := by
  have hk : kilobyte.bytes = 1024 := rfl
  have hm : megabyte.bytes = 1048576 := rfl
  unfold SizeUnit.of
  split
  · exact .inr (.inr ⟨by omega, rfl⟩)
  · split
    · exact .inr (.inl ⟨by omega, by omega, rfl⟩)
    · exact .inl ⟨by omega, rfl⟩

/-- The unit is one that the size reaches. -/
theorem bytes_of_le {size : Nat} (h : 1024 ≤ size) : (SizeUnit.of size).bytes ≤ size := by
  rcases of_cases size with ⟨hs, hu⟩ | ⟨hs, -, hu⟩ | ⟨hs, hu⟩
  · omega
  · rwa [hu]
  · rwa [hu]

/-- A larger size has the same unit, or one that the smaller size does not reach. -/
theorem of_eq_or_lt {small large : Nat} (h : small ≤ large) :
    SizeUnit.of small = SizeUnit.of large ∨ 1024 ≤ large ∧ small < (SizeUnit.of large).bytes := by
  rcases of_cases large with ⟨hl, hu⟩ | ⟨hl, hl', hu⟩ | ⟨hl, hu⟩
  · rcases of_cases small with ⟨-, hs⟩ | ⟨hs, -, -⟩ | ⟨hs, -⟩
    · exact .inl (hs.trans hu.symm)
    · omega
    · omega
  · rcases of_cases small with ⟨hs, -⟩ | ⟨-, -, hs⟩ | ⟨hs, -⟩
    · exact .inr ⟨hl, by rwa [hu]⟩
    · exact .inl (hs.trans hu.symm)
    · omega
  · rcases Nat.lt_or_ge small 1048576 with hs | hs
    · exact .inr ⟨by omega, by rwa [hu]⟩
    · rcases of_cases small with ⟨hs', -⟩ | ⟨-, hs', -⟩ | ⟨-, hs'⟩
      · omega
      · omega
      · exact .inl (hs'.trans hu.symm)

/-- The bytes of a unit as a word. -/
def word (unit : SizeUnit) : UInt64 := unit.bytes.toUInt64

theorem toNat_word (unit : SizeUnit) : unit.word.toNat = unit.bytes := by cases unit <;> rfl

/-- The largest unit that a word reaches. -/
def ofWord (size : UInt64) : SizeUnit :=
  if megabyte.word ≤ size then .megabyte
  else if kilobyte.word ≤ size then .kilobyte
  else .byte

theorem ofWord_eq (size : UInt64) : ofWord size = SizeUnit.of size.toNat := by
  simp only [ofWord, SizeUnit.of, UInt64.le_iff_toNat_le, toNat_word]

end SizeUnit

namespace ShownSize

/-! ## Tenths of a unit -/

/-- What is shown, in tenths of the unit. -/
def tenthUnits (s : ShownSize) : Nat := 10 * s.whole + s.tenths

/-- What is shown, in tenths of a byte. -/
def quantity (s : ShownSize) : Nat := s.tenthUnits * s.unit.bytes

/-- The whole units and the tenths of the rest are the tenths of all. -/
theorem floor_of (size : Nat) : (of size).tenthUnits = 10 * size / (of size).unit.bytes := by
  have hpos := (SizeUnit.of size).bytes_pos
  simp only [of, tenthUnits]
  generalize (SizeUnit.of size).bytes = unit at hpos ⊢
  calc 10 * (size / unit) + size % unit * 10 / unit
      = (unit * (10 * (size / unit)) + size % unit * 10) / unit := by
        rw [Nat.mul_add_div hpos]
    _ = 10 * (unit * (size / unit) + size % unit) / unit := by
        rw [Nat.mul_add, Nat.mul_left_comm, Nat.mul_comm (size % unit)]
    _ = 10 * size / unit := by rw [Nat.div_add_mod]

theorem tenths_lt (size : Nat) : (of size).tenths < 10 := by
  have hpos := (SizeUnit.of size).bytes_pos
  have hmod := Nat.mod_lt size hpos
  apply Nat.div_lt_of_lt_mul
  omega

theorem quantity_le (size : Nat) : (of size).quantity ≤ 10 * size := by
  rw [quantity, floor_of]
  exact Nat.div_mul_le_self _ _

theorem lt_quantity_add (size : Nat) :
    10 * size < (of size).quantity + (of size).unit.bytes := by
  rw [quantity, floor_of]
  exact Nat.lt_div_mul_add (of size).unit.bytes_pos

theorem of_of_lt {size : Nat} (h : size < 1024) : of size = ⟨size, 0, .byte⟩ := by
  have hu : SizeUnit.of size = .byte := by
    rcases SizeUnit.of_cases size with ⟨-, hu⟩ | ⟨hs, -⟩ | ⟨hs, -⟩
    · exact hu
    · omega
    · omega
  simp only [of, hu, SizeUnit.bytes, Nat.div_one, Nat.mod_one]

theorem whole_pos {size : Nat} (h : 1024 ≤ size) : 1 ≤ (of size).whole :=
  Nat.div_pos (SizeUnit.bytes_of_le h) (SizeUnit.bytes_pos _)

/-- There are fewer kilobytes than make a megabyte. -/
theorem tenthUnits_le {size : Nat} (h : (of size).unit = .kilobyte) :
    (of size).tenthUnits ≤ 10239 := by
  have hu : SizeUnit.of size = .kilobyte := h
  have hs : size < 1048576 := by
    rcases SizeUnit.of_cases size with ⟨hs, -⟩ | ⟨-, hs, -⟩ | ⟨-, hs⟩
    · omega
    · exact hs
    · rw [hs] at hu
      cases hu
  have hlt : 10 * size / 1024 < 10240 := Nat.div_lt_of_lt_mul (by omega)
  rw [floor_of, h]
  exact Nat.le_of_lt_succ hlt

/-- Larger sizes are shown as at least as much. Where the units differ, the smaller size does not
reach one of the larger unit, and of that at least one is shown. -/
theorem quantity_of_le {small large : Nat} (h : small ≤ large) :
    (of small).quantity ≤ (of large).quantity := by
  rcases SizeUnit.of_eq_or_lt h with hu | ⟨hlarge, hlt⟩
  · have hunit : (of small).unit = (of large).unit := hu
    rw [quantity, quantity, floor_of, floor_of, hunit]
    exact Nat.mul_le_mul_right _ (Nat.div_le_div_right (Nat.mul_le_mul_left 10 h))
  · have hw := whole_pos hlarge
    calc (of small).quantity
        ≤ 10 * small := quantity_le small
      _ ≤ 10 * (of large).unit.bytes := Nat.mul_le_mul_left 10 (Nat.le_of_lt hlt)
      _ ≤ (of large).quantity := Nat.mul_le_mul_right _ (by rw [tenthUnits]; omega)

/-! ## Sixty-four bits -/

/-- A size in the largest unit that it reaches, where every number on the way is a word of 64 bits
and wraps around. -/
def ofWord (size : UInt64) : ShownSize :=
  let unit := SizeUnit.ofWord size
  ⟨(size / unit.word).toNat, (size % unit.word * 10 / unit.word).toNat, unit⟩

/-- Ten times the rest has room in 64 bits. -/
theorem product_lt (size : Nat) (unit : SizeUnit) : size % unit.bytes * 10 < 2 ^ 64 := by
  have hmod := Nat.mod_lt size unit.bytes_pos
  have hle := unit.bytes_le
  omega

/-- No number on the way wraps around. -/
theorem ofWord_eq (size : UInt64) : ofWord size = of size.toNat := by
  simp only [ofWord, of, SizeUnit.ofWord_eq]
  generalize SizeUnit.of size.toNat = unit
  have hten : (size % unit.word * 10).toNat = size.toNat % unit.bytes * 10 := by
    rw [UInt64.toNat_mul, UInt64.toNat_mod, SizeUnit.toNat_word]
    exact Nat.mod_eq_of_lt (product_lt _ unit)
  rw [UInt64.toNat_div, UInt64.toNat_div, hten, SizeUnit.toNat_word]

end ShownSize

/-! ## What is shown -/

/-- What a shown size says of a size: below 1024 bytes it is the size; from there on it is the
number of whole units, at least one, and the number of tenths, a single digit, that fit into the
size. -/
structure ShownSize.Shows (s : ShownSize) (size : Nat) : Prop where
  bytes : size < 1024 → s = ⟨size, 0, .byte⟩
  unit : 1024 ≤ size → s.unit = if size < 1048576 then .kilobyte else .megabyte
  whole : 1024 ≤ size → 1 ≤ s.whole
  tenths : s.tenths < 10
  floor : s.tenthUnits = 10 * size / s.unit.bytes
  lower : s.quantity ≤ 10 * size
  upper : 10 * size < s.quantity + s.unit.bytes
  kilobyte : s.unit = .kilobyte → s.tenthUnits ≤ 10239

theorem ShownSize.shows_of (size : Nat) : (ShownSize.of size).Shows size where
  bytes := of_of_lt
  unit h := by
    rcases SizeUnit.of_cases size with ⟨hs, -⟩ | ⟨-, hs, hu⟩ | ⟨hs, hu⟩
    · omega
    · rw [if_pos hs]
      exact hu
    · rw [if_neg (by omega)]
      exact hu
  whole := whole_pos
  tenths := tenths_lt size
  floor := floor_of size
  lower := quantity_le size
  upper := lt_quantity_add size
  kilobyte := tenthUnits_le

/-- The size that is read is the one that was shown. -/
theorem read?_formatSize (size : Nat) :
    ShownSize.read? (formatSize size) = some (ShownSize.of size) := by
  apply ShownSize.read?_text
  intro h
  rcases SizeUnit.of_cases size with ⟨hs, -⟩ | ⟨-, -, hu⟩ | ⟨-, hu⟩
  · rw [ShownSize.of_of_lt hs]
  · exact absurd (h.symm.trans hu) (by decide)
  · exact absurd (h.symm.trans hu) (by decide)

/-- From a kilobyte on there is one digit between the point and the space. -/
theorem formatSize_eq {size : Nat} (h : 1024 ≤ size) :
    formatSize size = (ShownSize.of size).whole.repr ++ "." ++
      String.singleton (ShownSize.of size).tenths.digitChar ++ " " ++
        (ShownSize.of size).unit.sign := by
  have hu : (ShownSize.of size).unit ≠ .byte := by
    rw [(ShownSize.shows_of size).unit h]
    split <;> decide
  have ht : (ShownSize.of size).tenths.repr =
      String.singleton (ShownSize.of size).tenths.digitChar := by
    apply String.toList_inj.1
    rw [Nat.toList_repr, Nat.toDigits_of_lt_base (ShownSize.tenths_lt size),
      String.toList_singleton]
  rw [formatSize, ShownSize.text, if_neg hu, ht]

/-- What is shown of a size of 64 bits can be read and says how large it is, to a tenth of the unit;
it takes no more than 64 bits to find that. Sizes in order are shown in order. -/
theorem read_formatSize :
    (∀ n : UInt64, ∃ s, ShownSize.read? (formatSize n.toNat) = some s ∧ s.Shows n.toNat ∧
      (1024 ≤ n.toNat → formatSize n.toNat = s.whole.repr ++ "." ++
        String.singleton s.tenths.digitChar ++ " " ++ s.unit.sign) ∧
      n.toNat % s.unit.bytes * 10 < 2 ^ 64 ∧ ShownSize.ofWord n = s) ∧
    ∀ n m : UInt64, n ≤ m → ∃ s t, ShownSize.read? (formatSize n.toNat) = some s ∧
      ShownSize.read? (formatSize m.toNat) = some t ∧ s.quantity ≤ t.quantity := by
  constructor
  · intro n
    exact ⟨_, read?_formatSize n.toNat, ShownSize.shows_of n.toNat, formatSize_eq,
      ShownSize.product_lt n.toNat _, ShownSize.ofWord_eq n⟩
  · intro n m h
    exact ⟨_, _, read?_formatSize n.toNat, read?_formatSize m.toNat,
      ShownSize.quantity_of_le (UInt64.le_iff_toNat_le.1 h)⟩

/-- The last size in kilobytes and the first in megabytes. -/
theorem read_formatSize_megabyte :
    1024 ≤ (1048575 : UInt64).toNat ∧ (1048575 : UInt64) ≤ 1048576 ∧
      formatSize 1048575 = "1023.9 KB" ∧ formatSize 1048576 = "1.0 MB" ∧
      (∃ s, ShownSize.read? (formatSize 1048575) = some s ∧
        formatSize 1048575 = s.whole.repr ++ "." ++ String.singleton s.tenths.digitChar ++ " " ++
          s.unit.sign) ∧
      ∃ s t, ShownSize.read? (formatSize 1048575) = some s ∧
        ShownSize.read? (formatSize 1048576) = some t ∧ s.quantity ≤ t.quantity := by
  have hs : 1024 ≤ (1048575 : UInt64).toNat := by decide
  have hle : (1048575 : UInt64) ≤ 1048576 := by decide
  obtain ⟨s, hread, -, htext, -⟩ := read_formatSize.1 1048575
  exact ⟨hs, hle, by decide, by decide, ⟨s, hread, htext hs⟩, read_formatSize.2 _ _ hle⟩

end Wheelwright
