import Wheelwright.Text.Utf8
import Wheelwright.Text.Split
/-!
# Paths

A path is any sequence of bytes. Slashes separate its names; repeated slashes count as one, `.`
stands for the directory before it, and a slash at the end asks for a directory. What a path leads
to is for a disk to say: here are only the questions that the bytes alone can answer.

The main statement is `parent?_eq_some`: the path of the directory above is a proper beginning.
-/

namespace Wheelwright

/-- A name in a directory. -/
abbrev Name := Bytes

/-- A path as it is written. -/
structure Path where
  bytes : Bytes
  deriving DecidableEq, Repr

namespace Path

/-- The byte between names. -/
def slash : UInt8 := 0x2F

/-- The name of the directory itself. -/
def dot : Name := [0x2E]

/-- The name of the directory above. -/
def dotDot : Name := [0x2E, 0x2E]

/-- The path that a text spells. -/
def ofString (s : String) : Path := ⟨Utf8.encode s⟩

/-- The path as text, with U+FFFD for what is not text. -/
def display (p : Path) : String := Utf8.lossy p.bytes

/-- A path from the root. -/
def isAbsolute (p : Path) : Bool := p.bytes.head? == some slash

/-- A path without bytes. -/
def isEmpty (p : Path) : Bool := p.bytes.isEmpty

/-- The stretches between the slashes. -/
def pieces (p : Path) : List Name := Split.pieces slash p.bytes

/-- The names along the way. -/
def names (p : Path) : List Name := p.pieces.filter (· ≠ [])

/-- Whether there is a slash behind the last name. -/
def endsInSlash (p : Path) : Bool := p.bytes.getLast? == some slash && !p.names.isEmpty

/-- The names along the way, with a `.` at the end for a slash at the end. -/
def steps (p : Path) : List Name := p.names ++ if p.endsInSlash then [dot] else []

/-- `name` below `p`; an absolute path takes the place of `p`. -/
def join (p name : Path) : Path :=
  if name.isAbsolute then name
  else if p.bytes.isEmpty || p.bytes.getLast? == some slash then ⟨p.bytes ++ name.bytes⟩
  else ⟨p.bytes ++ slash :: name.bytes⟩

/-- The last name of a path, if it is the name of something: neither the root nor `..`. -/
def fileName? (p : Path) : Option Name :=
  match (p.names.filter (· ≠ dot)).getLast? with
  | some name => if name = dotDot then none else some name
  | none => none

/-- Without the pieces at the end that lead nowhere. -/
def withoutTail (pieces : List Name) : List Name :=
  (pieces.reverse.dropWhile fun p => p = [] || p = dot).reverse

/-- The path of the directory that holds the last name: `none` for the root and for the empty path,
the empty path for a single name. -/
def parent? (p : Path) : Option Path :=
  match p.pieces with
  | [] => none
  | first :: rest =>
    match withoutTail rest with
    | [] => if first = [] then none else some ⟨[]⟩
    | named =>
      match withoutTail named.dropLast with
      | [] => some ⟨if first = [] then [slash] else first⟩
      | above => some ⟨Split.glue slash (first :: above)⟩

/-! ## A directory's path is shorter -/

theorem withoutTail_isPrefix (pieces : List Name) : withoutTail pieces <+: pieces := by
  have h := List.reverse_prefix.2
    (List.dropWhile_suffix (fun p => decide (p = []) || decide (p = dot)) (l := pieces.reverse))
  rwa [List.reverse_reverse] at h

private theorem append_of_named {rest : List Name} (h : withoutTail rest ≠ []) :
    ∃ below, below ≠ [] ∧ rest = withoutTail (withoutTail rest).dropLast ++ below := by
  have hp := (withoutTail_isPrefix (withoutTail rest).dropLast).trans
    ((List.dropLast_prefix _).trans (withoutTail_isPrefix rest))
  obtain ⟨below, hb⟩ := hp
  refine ⟨below, ?_, hb.symm⟩
  rintro rfl
  have h₁ := (withoutTail_isPrefix (withoutTail rest).dropLast).length_le
  have h₂ := (withoutTail_isPrefix rest).length_le
  have h₃ := List.length_pos_iff.2 h
  have h₄ := congrArg List.length hb
  simp only [List.length_dropLast, List.append_nil] at h₁ h₄
  omega

/-- The path of the directory above is the beginning of a path, and not all of it. -/
theorem parent?_eq_some {p q : Path} (h : p.parent? = some q) :
    q.bytes <+: p.bytes ∧ q.bytes.length < p.bytes.length := by
  have hg : Split.glue slash p.pieces = p.bytes := Split.glue_pieces slash p.bytes
  unfold parent? at h
  split at h
  · cases h
  · next first rest hp =>
    rw [hp] at hg
    split at h
    · next hn =>
      split at h
      · cases h
      · next hf =>
        cases h
        have := List.length_pos_iff.2 hf
        refine ⟨List.nil_prefix, ?_⟩
        rw [← hg]
        cases rest with
        | nil => simpa [Split.glue] using this
        | cons r rs =>
          rw [Split.glue_cons first (by simp), List.length_append]
          exact Nat.add_pos_left this _
    · next hn =>
      obtain ⟨below, hb, hr⟩ := append_of_named hn
      have hg' : p.bytes = Split.glue slash (first :: withoutTail (withoutTail rest).dropLast) ++
          slash :: Split.glue slash below := by
        rw [← hg, ← Split.glue_append slash (by simp) hb, List.cons_append, ← hr]
      split at h
      · next ha =>
        cases h
        rw [hg', ha]
        by_cases hf : first = []
        · cases hb' : Split.glue slash below with
          | nil =>
            rw [ha, List.nil_append] at hr
            have hs := Split.eq_singleton_of_glue_eq_nil hb hb'
            rw [hr, hs] at hn
            exact absurd (by decide) hn
          | cons b bs => simp [hf, Split.glue]
        · simp [hf, Split.glue]
      · cases h
        rw [hg']
        simp

end Path
end Wheelwright
