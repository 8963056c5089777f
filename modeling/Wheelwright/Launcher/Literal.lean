/-!
# String literals on one line

A text stands in a Python module between double quotes on one line, with a backslash before a quote
or a backslash, and `n` or `r` after a backslash for a line end. The reader knows these escapes and
no others, and takes no line end as it is. The main statement is `read?_write`: a literal is read
back, and what follows it is left over.
-/

namespace Wheelwright.Literal

/-- One character of a text, between the quotes. -/
def escapeChar (c : Char) : List Char :=
  if c = '\\' then ['\\', '\\']
  else if c = '"' then ['\\', '"']
  else if c = '\n' then ['\\', 'n']
  else if c = '\r' then ['\\', 'r']
  else [c]

/-- A text as a literal. -/
def write (s : String) : String := "\"" ++ String.ofList (s.toList.flatMap escapeChar) ++ "\""

/-- The character that an escape stands for. -/
def unescapeChar? (c : Char) : Option Char :=
  if c = '\\' || c = '"' then some c
  else if c = 'n' then some '\n'
  else if c = 'r' then some '\r'
  else none

/-- The text up to the quote that ends it, and what follows the quote. -/
def readBody? : List Char → Option (List Char × List Char)
  | [] => none
  | '"' :: rest => some ([], rest)
  | '\\' :: c :: rest =>
    match unescapeChar? c, readBody? rest with
    | some u, some (text, rest) => some (u :: text, rest)
    | _, _ => none
  | c :: rest =>
    if c = '\\' || c = '\n' || c = '\r' then none
    else (readBody? rest).map fun (text, rest) => (c :: text, rest)

/-- The text of the literal that some characters begin with, and the characters after it. -/
def read? : List Char → Option (String × List Char)
  | '"' :: cs => (readBody? cs).map fun (text, rest) => (String.ofList text, rest)
  | _ => none

theorem readBody?_escape (cs rest : List Char) :
    readBody? (cs.flatMap escapeChar ++ '"' :: rest) = some (cs, rest) := by
  induction cs with
  | nil => rfl
  | cons c cs ih =>
    by_cases h₁ : c = '\\'
    · subst h₁; simp [escapeChar, readBody?, unescapeChar?, ih]
    by_cases h₂ : c = '"'
    · subst h₂; simp [escapeChar, readBody?, unescapeChar?, ih]
    by_cases h₃ : c = '\n'
    · subst h₃; simp [escapeChar, readBody?, unescapeChar?, ih]
    by_cases h₄ : c = '\r'
    · subst h₄; simp [escapeChar, readBody?, unescapeChar?, ih]
    simp [escapeChar, readBody?, h₁, h₂, h₃, h₄, ih]

/-- A literal is read back, and what follows it is left over. -/
@[simp] theorem read?_write (s : String) (rest : List Char) :
    read? ((write s).toList ++ rest) = some (s, rest) := by
  simp [write, read?, readBody?_escape]

end Wheelwright.Literal
