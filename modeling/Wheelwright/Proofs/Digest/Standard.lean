import Mathlib.Algebra.Group.Nat.Defs
import Wheelwright.Digest.Sha256
/-!
# Which bytes are the digest of a message

The digest said without an algorithm, in the terms of the standard: padding is known by what it ends
with and by its length, the words of the rounds by a recurrence over all of them, and the states by
a chain from block to block.
-/

namespace Wheelwright.Sha256

/-- The number that bytes spell, big end first. -/
def number (bs : Bytes) : Nat := bs.foldl (fun n b => n * 256 + b.toNat) 0

/-- The message, a set bit, as few zeros as make whole blocks of everything, and the number of the
message's bits in eight bytes. -/
def IsPadded (message padded : Bytes) : Prop :=
  ∃ zeros length, padded = message ++ 0x80 :: List.replicate zeros 0 ++ length ∧ zeros < 64 ∧
    padded.length % 64 = 0 ∧ length.length = 8 ∧ number length = message.length * 8 % 2 ^ 64

/-- The words of the rounds: those of the block, four bytes each, and from then on each from four
words before it. -/
structure IsSchedule (block : Bytes) (w : Nat → UInt32) : Prop where
  first : ∀ t, t < 16 → (w t).toNat = number ((block.drop (4 * t)).take 4)
  next : ∀ t, w (t + 16) =
    (rotate (w (t + 14)) 17 ^^^ rotate (w (t + 14)) 19 ^^^ (w (t + 14) >>> 10)) + w (t + 9) +
      (rotate (w (t + 1)) 7 ^^^ rotate (w (t + 1)) 18 ^^^ (w (t + 1) >>> 3)) + w t

/-- The state after some rounds, each with its constant and its word. -/
def afterRounds (w : Nat → UInt32) (s : State) : Nat → State
  | 0 => s
  | t + 1 => (afterRounds w s t).round (constants.getD t 0) (w t)

/-- The sum of two states, word by word. -/
def State.add (s t : State) : State :=
  ⟨s.a + t.a, s.b + t.b, s.c + t.c, s.d + t.d, s.e + t.e, s.f + t.f, s.g + t.g, s.h + t.h⟩

/-- States from block to block: each is added to what sixty-four rounds make of it. -/
inductive Chain : State → List Bytes → State → Prop
  | nil (s : State) : Chain s [] s
  | cons {s u : State} {block : Bytes} {blocks : List Bytes} {w : Nat → UInt32}
      (hblock : block.length = 64) (hw : IsSchedule block w)
      (h : Chain (s.add (afterRounds w s 64)) blocks u) : Chain s (block :: blocks) u

/-- The bytes are the last state of a chain through the padded message. -/
def IsDigest (message digest : Bytes) : Prop :=
  ∃ blocks last, IsPadded message blocks.flatten ∧ Chain initial blocks last ∧ digest = last.bytes

end Wheelwright.Sha256
