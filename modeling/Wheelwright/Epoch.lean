import Wheelwright.Text.Blank
/-!
# Reading a point in time

The time that archives are stamped with comes as decimal text: a number of seconds since 1970 that
fits into 64 bits with a sign. White space around it does not count, one sign may come first, and
the digits are ASCII. Reading stops at the first character that decides against it.
-/

namespace Wheelwright

/-- Why a text is no 64-bit number. -/
inductive EpochError where
  | empty
  | invalidDigit
  | tooLarge
  | tooSmall
  deriving DecidableEq, Repr

/-- What is told about the text. -/
def EpochError.message : EpochError → String
  | .empty => "cannot parse integer from empty string"
  | .invalidDigit => "invalid digit found in string"
  | .tooLarge => "number too large to fit in target type"
  | .tooSmall => "number too small to fit in target type"

namespace Epoch

/-- The value of an ASCII digit. -/
def digit? (c : Char) : Option Nat := if c.isDigit then some (c.toNat - 48) else none

/-- A number read on from the digits before it; more than `limit` is `overflow`. -/
def readDigits (limit : Nat) (overflow : EpochError) : Nat → List Char → Except EpochError Nat
  | n, [] => .ok n
  | n, c :: cs =>
    match digit? c with
    | none => .error .invalidDigit
    | some d =>
      if limit < n * 10 + d then .error overflow
      else readDigits limit overflow (n * 10 + d) cs

/-- The largest 64-bit number. -/
def largest : Nat := 9223372036854775807

/-- The size of the smallest 64-bit number. -/
def smallest : Nat := 9223372036854775808

/-- The number that a text without white space around it stands for. -/
def readNumber : List Char → Except EpochError Int
  | [] => .error .empty
  | ['+'] => .error .invalidDigit
  | ['-'] => .error .invalidDigit
  | '+' :: cs => (readDigits largest .tooLarge 0 cs).map Int.ofNat
  | '-' :: cs => (readDigits smallest .tooSmall 0 cs).map fun n => -Int.ofNat n
  | cs => (readDigits largest .tooLarge 0 cs).map Int.ofNat

/-- Digits, with one sign in front or none, and the number that they spell. -/
inductive Spells : List Char → Int → Prop
  | unsigned {ds : List Char} (hne : ds ≠ []) (hd : ∀ c ∈ ds, c.isDigit = true) :
      Spells ds (Nat.ofDigitChars 10 ds 0)
  | plus {ds : List Char} (hne : ds ≠ []) (hd : ∀ c ∈ ds, c.isDigit = true) :
      Spells ('+' :: ds) (Nat.ofDigitChars 10 ds 0)
  | minus {ds : List Char} (hne : ds ≠ []) (hd : ∀ c ∈ ds, c.isDigit = true) :
      Spells ('-' :: ds) (-Nat.ofDigitChars 10 ds 0)

/-- The number of seconds that a text stands for. -/
def read (raw : String) : Except EpochError Int := readNumber (Text.trimChars raw.toList)

end Epoch
end Wheelwright
