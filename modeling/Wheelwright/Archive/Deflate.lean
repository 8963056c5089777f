import Wheelwright.Archive.Little
/-!
# Deflate with stored blocks

The simplest stream of the deflate format keeps the data as it is, in blocks of at most 65535 bytes,
each with its length and the complement of its length in front. Every reader of the format
understands it. The main statement is `inflate_deflate`: what was packed is unpacked.
-/

namespace Wheelwright.Deflate

/-- The most bytes of a stored block. -/
def blockSize : Nat := 65535

/-- A stored block; the first byte says whether it is the last. -/
def block (isLast : Bool) (content : Bytes) : Bytes :=
  (if isLast then 1 else 0) :: Little.write 2 content.length ++
    Little.write 2 (blockSize - content.length) ++ content

/-- The data in so many blocks and one last one; all but the last are full as far as the data
reach. -/
def blocks : Nat → Bytes → Bytes
  | 0, content => block true content
  | n + 1, content => block false (content.take blockSize) ++ blocks n (content.drop blockSize)

/-- The data as a stream. -/
def deflate (content : Bytes) : Bytes := blocks ((content.length - 1) / blockSize) content

/-- The first block of a stream, once its length has been read and checked: whether it is the last,
its content, and what follows it. -/
def blockOf? (marker : UInt8) (length complement : Nat) (rest : Bytes) :
    Option (Bool × Bytes × Bytes) :=
  if complement ≠ blockSize - length || rest.length < length then none
  else if marker = 1 then some (true, rest.take length, rest.drop length)
  else if marker = 0 then some (false, rest.take length, rest.drop length)
  else none

/-- The first block of a stream: whether it is the last, its content, and what follows it. -/
def readBlock? : Bytes → Option (Bool × Bytes × Bytes)
  | [] => none
  | marker :: bs =>
    match Little.read 2 bs with
    | none => none
    | some (length, bs) =>
      match Little.read 2 bs with
      | none => none
      | some (complement, rest) => blockOf? marker length complement rest

/-- The data of a stream that has at most so many blocks and ends with the last. -/
def unblock : Nat → Bytes → Option Bytes
  | 0, _ => none
  | fuel + 1, stream =>
    match readBlock? stream with
    | none => none
    | some (true, content, rest) => if rest = [] then some content else none
    | some (false, content, rest) => (unblock fuel rest).map (content ++ ·)

/-- The data of a stream of stored blocks; each has a byte at least. -/
def inflate (stream : Bytes) : Option Bytes := unblock stream.length stream

/-! ## Unpacking what was packed -/

@[simp] theorem length_block (isLast : Bool) (content : Bytes) :
    (block isLast content).length = content.length + 5 := by
  simp only [block, List.cons_append, List.length_cons, List.length_append, Little.length_write]
  omega

theorem readBlock?_block (isLast : Bool) (content rest : Bytes) (h : content.length ≤ blockSize) :
    readBlock? (block isLast content ++ rest) = some (isLast, content, rest) := by
  have h₁ : content.length < Little.bound 2 := Nat.lt_of_le_of_lt h (by decide)
  have h₂ : blockSize - content.length < Little.bound 2 :=
    Nat.lt_of_le_of_lt (Nat.sub_le _ _) (by decide)
  simp only [block, List.cons_append, List.append_assoc, readBlock?, Little.read_write _ _ _ h₁,
    Little.read_write _ _ _ h₂, blockOf?]
  cases isLast <;> simp

/-- A block takes five bytes besides its content. -/
theorem length_blocks (n : Nat) (content : Bytes) :
    (blocks n content).length = content.length + 5 * (n + 1) := by
  induction n generalizing content with
  | zero => exact length_block true content
  | succ n ih =>
    simp only [blocks, List.length_append, length_block, ih, List.length_take, List.length_drop]
    omega

theorem length_deflate (content : Bytes) : (deflate content).length =
    content.length + 5 * ((content.length - 1) / blockSize + 1) := length_blocks _ content

theorem unblock_blocks (n fuel : Nat) (content : Bytes) (hn : n < fuel)
    (h : content.length ≤ (n + 1) * blockSize) :
    unblock fuel (blocks n content) = some content := by
  induction n generalizing fuel content with
  | zero =>
    obtain ⟨fuel, rfl⟩ : ∃ f, fuel = f + 1 := ⟨fuel - 1, by omega⟩
    have hr := readBlock?_block true content [] (by simpa using h)
    rw [List.append_nil] at hr
    simp [blocks, unblock, hr]
  | succ n ih =>
    obtain ⟨fuel, rfl⟩ : ∃ f, fuel = f + 1 := ⟨fuel - 1, by omega⟩
    have hr := readBlock?_block false (content.take blockSize) (blocks n (content.drop blockSize))
      (by rw [List.length_take]; exact Nat.min_le_left _ _)
    have hd : (content.drop blockSize).length ≤ (n + 1) * blockSize := by
      rw [Nat.add_mul (n + 1)] at h
      rw [List.length_drop]
      omega
    simp [blocks, unblock, hr, ih fuel _ (by omega) hd]

/-- What was packed is unpacked. -/
@[simp] theorem inflate_deflate (content : Bytes) : inflate (deflate content) = some content := by
  have hl := length_deflate content
  refine unblock_blocks _ _ _ (by omega) ?_
  have h := Nat.div_add_mod (content.length - 1) blockSize
  have hm : (content.length - 1) % blockSize < blockSize := Nat.mod_lt _ (by decide)
  rw [Nat.add_mul, Nat.mul_comm _ blockSize]
  omega

end Wheelwright.Deflate
