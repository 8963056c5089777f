import Wheelwright.Record
import Wheelwright.Proofs.Digest.Alphabet
/-!
# The manifest of any members

A manifest loses nothing, whatever members it is made of: read back as comma-separated values, it
has a row with the path, the digest and the size of every member but one that stands in its own
place, in order, and a row for itself (`read_rows`). Only paths are ever put between quotes, since
neither a digest nor a number has a character that needs them, so that a manifest is its rows, each
on its line (`Csv.field_eq_toList`, `renderRecord_eq_table`).
-/

namespace Wheelwright

/-! ## Fields that stand as they are -/

namespace Csv

/-- A field without a character that needs quotes is written as it is. -/
theorem field_eq_toList {value : String} (h : ∀ c ∈ value.toList, needsQuotes c = false) :
    field value = value.toList := by
  have ha : value.toList.any needsQuotes = false := by
    rw [List.any_eq_false]
    intro c hc
    simp [h c hc]
  rw [field, ha, if_neg Bool.false_ne_true]

theorem needsQuotes_of_isDigit {c : Char} (h : c.isDigit = true) : needsQuotes c = false := by
  unfold needsQuotes
  simp only [Bool.or_eq_false_iff, decide_eq_false_iff_not]
  refine ⟨⟨⟨?_, ?_⟩, ?_⟩, ?_⟩ <;> (rintro rfl; exact absurd h (by decide))

end Csv

namespace Base64Url

theorem needsQuotes_of_mem_alphabet {c : Char} (h : c ∈ alphabet) : Csv.needsQuotes c = false := by
  have hall : alphabet.all (!Csv.needsQuotes ·) = true := by decide
  simpa using List.all_eq_true.1 hall c h

end Base64Url

/-! ## Rows -/

/-- The fields of a member's row. -/
def Member.fields (member : Member) : List String :=
  [member.path, "sha256=" ++ String.ofList (Base64Url.encode (Sha256.digest member.content)),
    member.content.length.repr]

/-- The rows of a manifest stored at `recordPath`: one for each member stored elsewhere, in order,
and its own. -/
def manifestRows (members : List Member) (recordPath : String) : List (List String) :=
  (members.filter (·.path ≠ recordPath)).map Member.fields ++ [[recordPath, "", ""]]

/-- Every row has three fields, of which only the first may need quotes. -/
theorem fields_of_mem_manifestRows {members : List Member} {recordPath : String}
    {row : List String} (h : row ∈ manifestRows members recordPath) :
    ∃ path hash size, row = [path, hash, size] ∧ Csv.field hash = hash.toList ∧
      Csv.field size = size.toList := by
  rcases List.mem_append.1 h with h | h
  · obtain ⟨m, -, rfl⟩ := List.mem_map.1 h
    refine ⟨_, _, _, rfl, Csv.field_eq_toList ?_, Csv.field_eq_toList ?_⟩
    · intro c hc
      rw [String.toList_append, List.mem_append] at hc
      rcases hc with hc | hc
      · have hall : "sha256=".toList.all (!Csv.needsQuotes ·) = true := by decide
        simpa using List.all_eq_true.1 hall c hc
      · rw [String.toList_ofList] at hc
        exact Base64Url.needsQuotes_of_mem_alphabet (Base64Url.mem_alphabet_of_mem_encode hc)
    · intro c hc
      rw [Nat.toList_repr] at hc
      exact Csv.needsQuotes_of_isDigit (Nat.isDigit_of_mem_toDigits (by decide) (by decide) hc)
  · rw [List.mem_singleton.1 h]
    exact ⟨recordPath, "", "", rfl, rfl, rfl⟩

/-- A row on its line: its first field between quotes if it needs them, and the others as they
are. -/
def manifestLine : List String → List Char
  | [] => ['\n']
  | path :: others => Csv.field path ++ others.flatMap (fun value => ',' :: value.toList) ++ ['\n']

theorem rows_eq_flatMap {rows : List (List String)}
    (h : ∀ row ∈ rows, Csv.fields row ++ ['\n'] = manifestLine row) :
    Csv.rows rows = rows.flatMap manifestLine := by
  induction rows with
  | nil => rfl
  | cons row rows ih =>
    rw [Csv.rows, List.flatMap_cons, ← h row List.mem_cons_self,
      ih fun r hr => h r (List.mem_cons_of_mem row hr), List.append_assoc, List.singleton_append]

theorem render_ofContent (member : Member) :
    (RecordRow.ofContent member.path member.content).render.toList ++ ['\n'] =
      manifestLine member.fields := by
  simp [RecordRow.render, RecordRow.ofContent, recordDigest, Member.fields, manifestLine]

theorem render_unhashed (path : String) :
    (RecordRow.unhashed path).render.toList ++ ['\n'] = manifestLine [path, "", ""] := by
  simp [RecordRow.render, RecordRow.unhashed, manifestLine]

/-- A manifest is its rows, each on its line. -/
theorem renderRecord_eq (members : List Member) (recordPath : String) :
    renderRecord members recordPath =
      String.ofList ((manifestRows members recordPath).flatMap manifestLine) := by
  rw [renderRecord, recordRows, manifestRows]
  simp only [List.flatMap_append, List.flatMap_map, List.flatMap_singleton, render_ofContent,
    render_unhashed]

/-- So it is the table of its rows, although only the paths are put between quotes. -/
theorem renderRecord_eq_table (members : List Member) (recordPath : String) :
    renderRecord members recordPath = Csv.table (manifestRows members recordPath) := by
  rw [renderRecord_eq, Csv.table, rows_eq_flatMap]
  intro row hrow
  obtain ⟨path, hash, size, rfl, hh, hs⟩ := fields_of_mem_manifestRows hrow
  simp [Csv.fields, manifestLine, hh, hs]

theorem read?_renderRecord_eq (members : List Member) (recordPath : String) :
    Csv.read? (renderRecord members recordPath) = some (manifestRows members recordPath) := by
  rw [renderRecord_eq_table]
  apply Csv.read?_table
  intro row hrow
  obtain ⟨path, hash, size, rfl, -⟩ := fields_of_mem_manifestRows hrow
  exact List.cons_ne_nil _ _

/-- A manifest loses nothing. Its rows are read back from it, one for each member stored elsewhere,
in order, and its own; each has three fields; and written once more, on lines or as a table, they
are the manifest. -/
theorem read_rows (members : List Member) (recordPath : String) :
    ∃ rows, Csv.read? (renderRecord members recordPath) = some rows ∧
      rows = (members.filter (·.path ≠ recordPath)).map Member.fields ++ [[recordPath, "", ""]] ∧
      (∀ row ∈ rows, row.length = 3) ∧
      String.ofList (rows.flatMap manifestLine) = renderRecord members recordPath ∧
      Csv.table rows = renderRecord members recordPath := by
  refine ⟨_, read?_renderRecord_eq members recordPath, rfl, ?_, ?_, ?_⟩
  · intro row hrow
    obtain ⟨path, hash, size, rfl, -⟩ := fields_of_mem_manifestRows hrow
    rfl
  · exact (renderRecord_eq members recordPath).symm
  · exact (renderRecord_eq_table members recordPath).symm

end Wheelwright
