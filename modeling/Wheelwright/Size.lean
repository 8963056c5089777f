import Wheelwright.Text.Number
/-!
# Sizes for people

A size is shown in the largest of three units that it reaches, cut off after one decimal. The main
statement is `read?_text`: what is shown can be read.
-/

namespace Wheelwright

/-- The units that sizes are shown in. -/
inductive SizeUnit where
  | byte
  | kilobyte
  | megabyte
  deriving DecidableEq, Repr

namespace SizeUnit

/-- The bytes in a unit. -/
def bytes : SizeUnit → Nat
  | .byte => 1
  | .kilobyte => 1024
  | .megabyte => 1048576

/-- The unit's sign. -/
def sign : SizeUnit → String
  | .byte => "B"
  | .kilobyte => "KB"
  | .megabyte => "MB"

/-- The unit with a sign. -/
def ofSign? (s : String) : Option SizeUnit := [byte, kilobyte, megabyte].find? (·.sign = s)

/-- The largest unit that a size reaches. -/
def of (size : Nat) : SizeUnit :=
  if megabyte.bytes ≤ size then .megabyte
  else if kilobyte.bytes ≤ size then .kilobyte
  else .byte

end SizeUnit

/-- A size as it is shown: whole units, and tenths of a unit; there are no tenths of a byte. -/
structure ShownSize where
  whole : Nat
  tenths : Nat
  unit : SizeUnit
  deriving DecidableEq, Repr

namespace ShownSize

/-- A size in the largest unit that it reaches. -/
def of (size : Nat) : ShownSize :=
  let unit := SizeUnit.of size
  ⟨size / unit.bytes, size % unit.bytes * 10 / unit.bytes, unit⟩

/-- The size as text; one in bytes has no decimal. -/
def text (s : ShownSize) : String :=
  if s.unit = .byte then s.whole.repr ++ " " ++ s.unit.sign
  else s.whole.repr ++ "." ++ s.tenths.repr ++ " " ++ s.unit.sign

/-- The unit after a space. -/
def readUnit? : List Char → Option SizeUnit
  | ' ' :: cs => SizeUnit.ofSign? (String.ofList cs)
  | _ => none

/-- The size after a point, once its whole units have been read. -/
def readTenths? (whole : Nat) (cs : List Char) : Option ShownSize :=
  match Text.readNat? cs with
  | none => none
  | some (tenths, rest) =>
    match readUnit? rest with
    | none | some .byte => none
    | some unit => some ⟨whole, tenths, unit⟩

/-- The size that a text shows. -/
def read? (text : String) : Option ShownSize :=
  match Text.readNat? text.toList with
  | none => none
  | some (whole, '.' :: rest) => readTenths? whole rest
  | some (whole, rest) => if readUnit? rest = some .byte then some ⟨whole, 0, .byte⟩ else none

theorem readUnit?_sign (unit : SizeUnit) : readUnit? (' ' :: unit.sign.toList) = some unit := by
  cases unit <;> decide

/-- What is shown can be read; nothing has tenths of a byte. -/
theorem read?_text (s : ShownSize) (h : s.unit = .byte → s.tenths = 0) :
    read? s.text = some s := by
  obtain ⟨whole, tenths, unit⟩ := s
  have hu := readUnit?_sign unit
  by_cases hb : unit = .byte
  · subst hb
    obtain rfl : tenths = 0 := h rfl
    have hw := Text.readNat?_repr whole (' ' :: SizeUnit.byte.sign.toList) (by simp)
    simp only [read?, text, if_pos, String.toList_append, List.append_assoc,
      show " ".toList = [' '] from rfl, List.cons_append, List.nil_append, hw]
    exact if_pos hu
  · have ht := Text.readNat?_repr tenths (' ' :: unit.sign.toList) (by simp)
    have hw := Text.readNat?_repr whole ('.' :: (tenths.repr.toList ++ ' ' :: unit.sign.toList))
      (by simp)
    simp only [read?, text, if_neg hb, String.toList_append, List.append_assoc,
      show " ".toList = [' '] from rfl, show ".".toList = ['.'] from rfl, List.cons_append,
      List.nil_append, hw, readTenths?, ht, hu]

end ShownSize

/-- A size as it is shown. -/
def formatSize (size : Nat) : String := (ShownSize.of size).text

end Wheelwright
