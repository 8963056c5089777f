import Wheelwright.Text.Split
/-!
# Comma-separated values

A table is written row by row, each ended by a line feed, with commas between the fields. A field
that holds a comma, a quote or a line end stands between quotes, and a quote inside it is written
twice. The reader is strict: it takes quotes around a whole field only, and nothing else that the
writer would have quoted. The main statement is `read?_table`: what was written is read back.
-/

namespace Wheelwright.Csv

/-! ## Writing -/

/-- The characters that cannot stand in a bare field. -/
def needsQuotes (c : Char) : Bool := c = ',' || c = '"' || c = '\n' || c = '\r'

/-- A quote inside quotes is written twice. -/
def doubleQuote (c : Char) : List Char := if c = '"' then ['"', '"'] else [c]

/-- A field, between quotes if it needs them. -/
def field (value : String) : List Char :=
  if value.toList.any needsQuotes then '"' :: value.toList.flatMap doubleQuote ++ ['"']
  else value.toList

/-- Fields with commas between them. -/
def fields : List String → List Char
  | [] => []
  | [value] => field value
  | value :: values => field value ++ ',' :: fields values

/-- Rows, each with its line end. -/
def rows : List (List String) → List Char
  | [] => []
  | values :: more => fields values ++ '\n' :: rows more

/-- A table. -/
def table (values : List (List String)) : String := String.ofList (rows values)

/-! ## Reading -/

/-- Where in a field a reader is. -/
inductive Place where
  /-- Before its first character. -/
  | start
  /-- In a field without quotes. -/
  | bare
  /-- Between quotes. -/
  | quoted
  /-- After a quote that ends the field, or is the first of two. -/
  | closed
  deriving DecidableEq, Repr

/-- The rows of a text read from inside a row; what was seen of the field and the fields before it
are in reverse. -/
def rowsFrom : Place → List Char → List String → List Char → Option (List (List String))
  | place, _, done, [] => if place = .start ∧ done = [] then some [] else none
  | .quoted, seen, done, c :: cs =>
    if c = '"' then rowsFrom .closed seen done cs else rowsFrom .quoted (c :: seen) done cs
  | place, seen, done, c :: cs =>
    let value := String.ofList seen.reverse
    if c = ',' then rowsFrom .start [] (value :: done) cs
    else if c = '\n' then (rowsFrom .start [] [] cs).map ((value :: done).reverse :: ·)
    else if c = '"' then
      match place with
      | .start => rowsFrom .quoted [] done cs
      | .closed => rowsFrom .quoted (c :: seen) done cs
      | _ => none
    else if c = '\r' || place = .closed then none
    else rowsFrom .bare (c :: seen) done cs

/-- The rows of a table. -/
def read? (text : String) : Option (List (List String)) := rowsFrom .start [] [] text.toList

/-! ## Reading what was written -/

private theorem rowsFrom_comma {place : Place} (h : place ≠ .quoted) (seen : List Char)
    (done : List String) (rest : List Char) : rowsFrom place seen done (',' :: rest) =
      rowsFrom .start [] (String.ofList seen.reverse :: done) rest := by
  cases place <;> simp_all [rowsFrom]

private theorem rowsFrom_newline {place : Place} (h : place ≠ .quoted) (seen : List Char)
    (done : List String) (rest : List Char) : rowsFrom place seen done ('\n' :: rest) =
      (rowsFrom .start [] [] rest).map ((String.ofList seen.reverse :: done).reverse :: ·) := by
  cases place <;> simp_all [rowsFrom]

private theorem rowsFrom_bare (cs seen : List Char) (done : List String) (rest : List Char)
    (h : ∀ c ∈ cs, needsQuotes c = false) :
    rowsFrom .bare seen done (cs ++ rest) = rowsFrom .bare (cs.reverse ++ seen) done rest := by
  induction cs generalizing seen with
  | nil => rfl
  | cons c cs ih =>
    have hc := h c (by simp)
    simp only [needsQuotes, Bool.or_eq_false_iff, decide_eq_false_iff_not] at hc
    rw [List.cons_append, rowsFrom]
    · simp [hc, ih (c :: seen) fun d hd => h d (by simp [hd])]
    all_goals simp

private theorem rowsFrom_quoted (cs seen : List Char) (done : List String) (rest : List Char) :
    rowsFrom .quoted seen done (cs.flatMap doubleQuote ++ '"' :: rest) =
      rowsFrom .closed (cs.reverse ++ seen) done rest := by
  induction cs generalizing seen with
  | nil => simp [rowsFrom]
  | cons c cs ih =>
    by_cases hc : c = '"'
    · subst hc
      simp [doubleQuote, rowsFrom, ih]
    · simp [doubleQuote, hc, rowsFrom, ih]

private theorem rowsFrom_field (value : String) (done : List String) (rest : List Char) :
    ∃ place, place ≠ .quoted ∧ rowsFrom .start [] done (field value ++ rest) =
      rowsFrom place value.toList.reverse done rest := by
  unfold field
  split
  · refine ⟨.closed, by simp, ?_⟩
    have := rowsFrom_quoted value.toList [] done rest
    rw [List.append_nil] at this
    simp [← this, rowsFrom]
  · next h =>
    have hs : ∀ c ∈ value.toList, needsQuotes c = false := by simpa using h
    cases hv : value.toList with
    | nil => exact ⟨.start, by simp, rfl⟩
    | cons c cs =>
      refine ⟨.bare, by simp, ?_⟩
      rw [hv] at hs
      have hc := hs c (by simp)
      simp only [needsQuotes, Bool.or_eq_false_iff, decide_eq_false_iff_not] at hc
      rw [List.cons_append, rowsFrom]
      simp [hc, rowsFrom_bare cs [c] done rest fun d hd => hs d (by simp [hd])]

private theorem rowsFrom_fields (values : List String) (hv : values ≠ []) (done : List String)
    (rest : List Char) : rowsFrom .start [] done (fields values ++ '\n' :: rest) =
      (rowsFrom .start [] [] rest).map ((done.reverse ++ values) :: ·) := by
  induction values generalizing done with
  | nil => exact absurd rfl hv
  | cons value values ih =>
    cases values with
    | nil =>
      obtain ⟨place, hp, h⟩ := rowsFrom_field value done ('\n' :: rest)
      simp [fields, h, rowsFrom_newline hp]
    | cons v vs =>
      obtain ⟨place, hp, h⟩ := rowsFrom_field value done (',' :: (fields (v :: vs) ++ '\n' :: rest))
      rw [fields, List.append_assoc, List.cons_append, h, rowsFrom_comma hp, ih (by simp)]
      all_goals simp

/-- A table is read back as it was written; a row without a field would come back with an empty
one. -/
theorem read?_table (values : List (List String)) (h : ∀ v ∈ values, v ≠ []) :
    read? (table values) = some values := by
  have hr : rowsFrom .start [] [] (rows values) = some values := by
    induction values with
    | nil => rfl
    | cons v vs ih =>
      rw [rows, rowsFrom_fields v (h v (by simp)), ih fun w hw => h w (by simp [hw])]
      rfl
  simpa [read?, table] using hr

end Wheelwright.Csv
