/-!
# Blank characters

The characters that count as white space are those with the Unicode property `White_Space`. A text
is blank if it has no other, and `trimChars` removes them from both ends: nothing else is removed
(`exists_eq_append_trimChars`), and all of them are (`trimChars_append`).
-/

namespace Wheelwright.Text

/-- The ranges of the property `White_Space`, in order. -/
def blankRanges : List (Nat × Nat) :=
  [(0x09, 0x0D), (0x20, 0x20), (0x85, 0x85), (0xA0, 0xA0), (0x1680, 0x1680), (0x2000, 0x200A),
    (0x2028, 0x2029), (0x202F, 0x202F), (0x205F, 0x205F), (0x3000, 0x3000)]

/-- A character that only separates. -/
def isBlankChar (c : Char) : Bool := blankRanges.any fun (lo, hi) => lo ≤ c.toNat && c.toNat ≤ hi

/-- A text of which nothing can be seen. -/
def isBlank (s : String) : Bool := s.toList.all isBlankChar

/-- Without the blank characters at both ends. -/
def trimChars (cs : List Char) : List Char :=
  ((cs.dropWhile isBlankChar).reverse.dropWhile isBlankChar).reverse

/-! ## Trimming -/

/-- What is trimmed is blank and stands at the two ends. -/
theorem exists_eq_append_trimChars (cs : List Char) :
    ∃ left right, cs = left ++ trimChars cs ++ right ∧
      (∀ c ∈ left, isBlankChar c = true) ∧ ∀ c ∈ right, isBlankChar c = true := by
  refine ⟨cs.takeWhile isBlankChar,
    ((cs.dropWhile isBlankChar).reverse.takeWhile isBlankChar).reverse, ?_, ?left, ?right⟩
  · rw [trimChars, List.append_assoc, ← List.reverse_append, List.takeWhile_append_dropWhile,
      List.reverse_reverse, List.takeWhile_append_dropWhile]
  case left => exact List.all_eq_true.1 List.all_takeWhile
  case right =>
    intro c hc
    exact List.all_eq_true.1 List.all_takeWhile c (List.mem_reverse.1 hc)

theorem dropWhile_of_not_blank {cs : List Char} (h : ∀ c ∈ cs, isBlankChar c = false) :
    cs.dropWhile isBlankChar = cs := by
  cases cs with
  | nil => rfl
  | cons c cs => exact List.dropWhile_cons_of_neg (by simp [h c List.mem_cons_self])

theorem dropWhile_of_blank {cs : List Char} (h : ∀ c ∈ cs, isBlankChar c = true) :
    cs.dropWhile isBlankChar = [] := by
  rw [← List.append_nil cs, List.dropWhile_append_of_pos h, List.dropWhile_nil]

/-- Blanks at the ends are all that is lost of a text in which nothing else is blank. -/
theorem trimChars_append {left core right : List Char} (hl : ∀ c ∈ left, isBlankChar c = true)
    (hr : ∀ c ∈ right, isBlankChar c = true) (hc : ∀ c ∈ core, isBlankChar c = false) :
    trimChars (left ++ core ++ right) = core := by
  rw [trimChars, List.append_assoc, List.dropWhile_append_of_pos hl]
  cases core with
  | nil =>
    rw [List.nil_append, dropWhile_of_blank hr, List.reverse_nil, List.dropWhile_nil,
      List.reverse_nil]
  | cons c core =>
    have hfront : (c :: core ++ right).dropWhile isBlankChar = c :: core ++ right :=
      List.dropWhile_cons_of_neg (by simp [hc c List.mem_cons_self])
    have hback : ∀ x ∈ right.reverse, isBlankChar x = true :=
      fun x hx => hr x (List.mem_reverse.1 hx)
    have hcore : ∀ x ∈ (c :: core).reverse, isBlankChar x = false :=
      fun x hx => hc x (List.mem_reverse.1 hx)
    rw [hfront, List.reverse_append, List.dropWhile_append_of_pos hback,
      dropWhile_of_not_blank hcore, List.reverse_reverse]

end Wheelwright.Text
