import Wheelwright.Text.Blank
import Wheelwright.Text.Split
/-!
# Settings in sections

A text with settings has one thing on each line: the name of a section between brackets, or a key
and a value with the first equals sign between them. Blanks around a key and around a value do not
count. Readers differ in which characters end a line, which are blank and which begin a comment; a
`Dialect` says so, within what they all agree on.
-/

namespace Wheelwright

/-- A line of a text with settings in sections. -/
inductive SettingLine where
  /-- The lines after it belong to this section. -/
  | header (name : String)
  | setting (key value : String)
  /-- Neither of the two. -/
  | other (text : String)
  deriving DecidableEq, Repr

namespace SettingLine

/-! ## Writing -/

/-- The line without its end. -/
def chars : SettingLine → List Char
  | .header name => '[' :: name.toList ++ [']']
  | .setting key value => key.toList ++ [' ', '=', ' '] ++ value.toList
  | .other text => text.toList

/-- Lines as a text, each with its end. -/
def render (lines : List SettingLine) : String :=
  String.ofList (lines.flatMap fun line => line.chars ++ ['\n'])

/-! ## Reading -/

/-- What a reader takes for a line end, for blank, and for the beginning of a comment. -/
structure Dialect where
  endsLine : Char → Bool
  isBlank : Char → Bool
  opensComment : Char → Bool
  endsLine_lineFeed : endsLine '\n' = true
  endsLine_space : endsLine ' ' = false
  isBlank_space : isBlank ' ' = true
  /-- What is seen in ASCII neither ends a line nor is blank. -/
  visible : ∀ c : Char, 0x21 ≤ c.toNat → c.toNat ≤ 0x7E → endsLine c = false ∧ isBlank c = false
  opensComment_bracket : opensComment '[' = false
  opensComment_equals : opensComment '=' = false

namespace Dialect

variable (d : Dialect)

/-- Every line end as a line feed. -/
def lineChar (c : Char) : Char := if d.endsLine c then '\n' else c

/-- Without the blanks at the start and at the end. -/
def trim (cs : List Char) : List Char :=
  ((cs.dropWhile d.isBlank).reverse.dropWhile d.isBlank).reverse

/-- What a line says. -/
def ofChars (cs : List Char) : SettingLine :=
  let line := d.trim cs
  if line.head?.any d.opensComment then .other (String.ofList line)
  else if line.head? = some '[' ∧ line.getLast? = some ']' then
    .header (String.ofList line.tail.dropLast)
  else match cs.dropWhile (· ≠ '=') with
    | [] => .other (String.ofList line)
    | _ :: value =>
      .setting (String.ofList (d.trim (cs.takeWhile (· ≠ '='))))
        (String.ofList (d.trim value))

/-- The lines of a text, if the last one has its end. -/
def read? (text : String) : Option (List SettingLine) :=
  let pieces := Split.pieces '\n' (text.toList.map d.lineChar)
  if pieces.getLast? = some [] then some (pieces.dropLast.map d.ofChars) else none

end Dialect

/-- Line feeds end lines, spaces are blank, and there are no comments. -/
def plain : Dialect where
  endsLine c := c = '\n'
  isBlank c := c = ' '
  opensComment _ := false
  endsLine_lineFeed := by decide
  endsLine_space := by decide
  isBlank_space := by decide
  visible c h _ := by
    constructor
    · apply decide_eq_false
      rintro rfl
      exact absurd h (by decide)
    · apply decide_eq_false
      rintro rfl
      exact absurd h (by decide)
  opensComment_bracket := rfl
  opensComment_equals := rfl

/-- The ranges of the characters that end a line in Unicode, in order. -/
def lineEndRanges : List (Nat × Nat) := [(0x0A, 0x0D), (0x85, 0x85), (0x2028, 0x2029)]

/-- What is seen in ASCII is in no range of characters before it or after it. -/
theorem any_eq_false_of_visible {ranges : List (Nat × Nat)}
    (hr : ∀ r ∈ ranges, r.2 < 0x21 ∨ 0x7E < r.1) {n : Nat} (h : 0x21 ≤ n) (h' : n ≤ 0x7E) :
    (ranges.any fun (lo, hi) => lo ≤ n && n ≤ hi) = false := by
  apply List.any_eq_false.2
  intro r hm
  have hb := hr r hm
  simp only [Bool.and_eq_true, decide_eq_true_eq]
  omega

/-- Every line end and every blank of Unicode counts, and there are two kinds of comments. -/
def unicode : Dialect where
  endsLine c := lineEndRanges.any fun (lo, hi) => lo ≤ c.toNat && c.toNat ≤ hi
  isBlank := Text.isBlankChar
  opensComment c := c = '#' || c = ';'
  endsLine_lineFeed := by decide
  endsLine_space := by decide
  isBlank_space := by decide
  visible _ h h' :=
    ⟨any_eq_false_of_visible (by decide) h h', any_eq_false_of_visible (by decide) h h'⟩
  opensComment_bracket := by decide
  opensComment_equals := by decide

end SettingLine
end Wheelwright
