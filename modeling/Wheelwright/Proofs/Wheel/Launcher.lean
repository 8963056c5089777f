import Wheelwright.Proofs.Text.Ascii
import Wheelwright.Proofs.Wheel.Identity
/-!
# The launcher finds the program

The package's module is a fixed text but for two lines, each with a string literal at its end. A
literal has no line end, so the lines are always the same in number and the literals stay on theirs
(`Launcher.pieces_initModule`); and a literal is read back whole, so that nothing of a version or of
a name is left over to be read as anything else. The main statement is `read_launcher`: what a
layout's module looks for is what the layout stores.
-/

namespace Wheelwright

/-! ## Literals keep to their lines -/

namespace Literal

/-- An escape has no line end. -/
theorem not_mem_escapeChar (c : Char) : '\r' ∉ escapeChar c ∧ '\n' ∉ escapeChar c := by
  unfold escapeChar
  split
  · decide
  split
  · decide
  split
  · decide
  split
  · decide
  · next hn hr =>
    simp only [List.mem_singleton]
    exact ⟨Ne.symm hr, Ne.symm hn⟩

theorem not_mem_write (s : String) : '\r' ∉ (write s).toList ∧ '\n' ∉ (write s).toList := by
  have hc : ∀ c : Char, (c = '\r' ∨ c = '\n') → c ∉ s.toList.flatMap escapeChar := by
    intro c hc hm
    obtain ⟨a, -, ha⟩ := List.mem_flatMap.1 hm
    rcases hc with rfl | rfl
    · exact (not_mem_escapeChar a).1 ha
    · exact (not_mem_escapeChar a).2 ha
  simp only [write, String.toList_append, String.toList_ofList, List.mem_append, not_or]
  exact ⟨⟨⟨by decide, hc _ (.inl rfl)⟩, by decide⟩, ⟨⟨by decide, hc _ (.inr rfl)⟩, by decide⟩⟩

end Literal

/-! ## The lines of the module -/

namespace Launcher

/-- Lines without line ends are what their text is cut into. -/
theorem pieces_textOfLines {lines : List String} (h : ∀ line ∈ lines, '\n' ∉ line.toList) :
    Split.pieces '\n' (textOfLines lines).toList = lines.map String.toList ++ [[]] := by
  unfold textOfLines
  induction lines with
  | nil => rfl
  | cons line lines ih =>
    have hl := h line List.mem_cons_self
    have ht : (String.join ((line :: lines).map (· ++ "\n"))).toList =
        line.toList ++ '\n' :: (String.join (lines.map (· ++ "\n"))).toList := by
      simp [String.toList_join]
    rw [ht, Split.pieces_append_cons hl, ih fun other ho => h other (List.mem_cons_of_mem _ ho)]
    rfl

/-- The start of a line that gives a name its value. -/
def mark (name : String) : List Char := (name ++ " = ").toList

/-- The lines that are always the same have no line end and begin with no underscore, as their bytes
show. -/
theorem fixed_bytes : ∀ line ∈ before ++ (between ++ after),
    13 ∉ line.toByteArray.data.toList ∧ 10 ∉ line.toByteArray.data.toList ∧
      line.toByteArray.data.toList.head? ≠ some 0x5F := by
  decide +kernel

/-- The lines that are always the same have no line end and give no value to either name. -/
theorem fixed_lines : ∀ line ∈ before ++ (between ++ after),
    '\r' ∉ line.toList ∧ '\n' ∉ line.toList ∧
      (mark "__version__").isPrefixOf line.toList = false ∧
      (mark "_BINARY_NAME").isPrefixOf line.toList = false := by
  intro line hl
  obtain ⟨hr, hn, hhead⟩ := fixed_bytes line hl
  rw [← Utf8.encode_eq] at hr hn hhead
  have hno : ∀ rest, '_' :: rest ≠ line.toList := by
    intro rest he
    apply hhead
    rw [Utf8.encode, ← he]
    rfl
  have hmark : ∀ name, (∃ rest, mark name = '_' :: rest) →
      (mark name).isPrefixOf line.toList = false := by
    rintro name ⟨rest, hrest⟩
    rw [Bool.eq_false_iff]
    intro hp
    obtain ⟨more, hm⟩ := List.isPrefixOf_iff_prefix.1 hp
    rw [hrest] at hm
    exact hno _ hm
  refine ⟨?_, ?_, hmark _ ⟨_, rfl⟩, hmark _ ⟨_, rfl⟩⟩
  · rwa [← Utf8.mem_encode_iff (by decide)]
  · rwa [← Utf8.mem_encode_iff (by decide)]

theorem not_mem_of_mem_initLines {version binaryName line : String}
    (h : line ∈ initLines version binaryName) : '\r' ∉ line.toList ∧ '\n' ∉ line.toList := by
  have hassign : ∀ name value : String, name = "__version__ = " ∨ name = "_BINARY_NAME = " →
      '\r' ∉ (name ++ Literal.write value).toList ∧
        '\n' ∉ (name ++ Literal.write value).toList := by
    intro name value hn
    obtain ⟨hr, hl⟩ := Literal.not_mem_write value
    simp only [String.toList_append, List.mem_append, not_or]
    rcases hn with rfl | rfl
    · exact ⟨⟨by decide, hr⟩, by decide, hl⟩
    · exact ⟨⟨by decide, hr⟩, by decide, hl⟩
  have hfixed : line ∈ before ++ (between ++ after) → '\r' ∉ line.toList ∧ '\n' ∉ line.toList :=
    fun hm => ⟨(fixed_lines line hm).1, (fixed_lines line hm).2.1⟩
  rw [initLines_eq] at h
  simp only [List.mem_append, List.mem_cons] at h hfixed
  rcases h with h | rfl | h | rfl | h
  · exact hfixed (.inl h)
  · exact hassign _ version (.inl rfl)
  · exact hfixed (.inr (.inl h))
  · exact hassign _ binaryName (.inr rfl)
  · exact hfixed (.inr (.inr h))

/-- The lines of the module: two of them are for the caller's texts, and the others are always the
same. -/
theorem pieces_initModule (version binaryName : String) :
    Split.pieces '\n' (initModule version binaryName).toList =
      before.map String.toList ++
        (mark "__version__" ++ (Literal.write version).toList) ::
          (between.map String.toList ++
            (mark "_BINARY_NAME" ++ (Literal.write binaryName).toList) ::
              (after.map String.toList ++ [[]])) := by
  rw [initModule, pieces_textOfLines fun line hl => (not_mem_of_mem_initLines hl).2, initLines_eq]
  simp [mark]

/-- There are as many lines for every version and every name, with an empty end behind the last. -/
theorem length_pieces_initModule (version binaryName : String) :
    (Split.pieces '\n' (initModule version binaryName).toList).length = 43 := by
  have hb : before.length = 6 := rfl
  have hm : between.length = 1 := rfl
  have ha : after.length = 33 := rfl
  rw [pieces_initModule]
  simp only [List.length_append, List.length_cons, List.length_map, List.length_nil, hb, hm, ha]

/-- The module has no line ends but those of its lines. -/
theorem not_mem_initModule (version binaryName : String) :
    '\r' ∉ (initModule version binaryName).toList := by
  rw [initModule, textOfLines, String.toList_join, List.flatMap_map]
  intro h
  obtain ⟨line, hl, hr⟩ := List.mem_flatMap.1 h
  rw [String.toList_append, List.mem_append] at hr
  rcases hr with hr | hr
  · exact (not_mem_of_mem_initLines hl).1 hr
  · exact absurd hr (by decide)

/-! ## What the module says -/

/-- The text that a module gives to a name: on the one line that begins with the name and an equals
sign, a literal and nothing after it. -/
def constant? (name text : String) : Option String :=
  match (Split.pieces '\n' text.toList).filter ((mark name).isPrefixOf ·) with
  | [line] =>
    match Literal.read? (line.drop (mark name).length) with
    | some (value, []) => some value
    | _ => none
  | _ => none

/-- A literal on the only line with a mark is what is given to the name. -/
theorem constant?_of_pieces {name text value : String} {front back : List (List Char)}
    (hp : Split.pieces '\n' text.toList =
      front ++ (mark name ++ (Literal.write value).toList) :: back)
    (hf : ∀ line ∈ front, (mark name).isPrefixOf line = false)
    (hb : ∀ line ∈ back, (mark name).isPrefixOf line = false) :
    constant? name text = some value := by
  have hfront : front.filter ((mark name).isPrefixOf ·) = [] :=
    List.filter_eq_nil_iff.2 fun line hl => ne_true_of_eq_false (hf line hl)
  have hback : back.filter ((mark name).isPrefixOf ·) = [] :=
    List.filter_eq_nil_iff.2 fun line hl => ne_true_of_eq_false (hb line hl)
  have hmark : (mark name).isPrefixOf (mark name ++ (Literal.write value).toList) = true :=
    List.isPrefixOf_iff_prefix.2 (List.prefix_append _ _)
  have hread := Literal.read?_write value []
  rw [List.append_nil] at hread
  unfold constant?
  rw [hp, List.filter_append, hfront, List.filter_cons_of_pos hmark, hback, List.nil_append]
  simp only [List.drop_left, hread]

theorem isPrefixOf_mark_other (rest : List Char) :
    (mark "__version__").isPrefixOf (mark "_BINARY_NAME" ++ rest) = false ∧
      (mark "_BINARY_NAME").isPrefixOf (mark "__version__" ++ rest) = false := by
  simp [mark, List.isPrefixOf]

/-- The module's two constants are the caller's texts. -/
theorem constant?_initModule (version binaryName : String) :
    constant? "__version__" (initModule version binaryName) = some version ∧
      constant? "_BINARY_NAME" (initModule version binaryName) = some binaryName := by
  have hp := pieces_initModule version binaryName
  have hfixed : ∀ part ∈ [before, between, after], ∀ line ∈ part.map String.toList,
      (mark "__version__").isPrefixOf line = false ∧
        (mark "_BINARY_NAME").isPrefixOf line = false := by
    intro part hpart line hl
    obtain ⟨l, hm, rfl⟩ := List.mem_map.1 hl
    refine (fixed_lines l ?_).2.2
    simp only [List.mem_cons, List.not_mem_nil, or_false] at hpart
    simp only [List.mem_append]
    rcases hpart with rfl | rfl | rfl
    · exact .inl hm
    · exact .inr (.inl hm)
    · exact .inr (.inr hm)
  have hlast : ∀ line ∈ after.map String.toList ++ [[]],
      (mark "__version__").isPrefixOf line = false ∧
        (mark "_BINARY_NAME").isPrefixOf line = false := by
    intro line hl
    rcases List.mem_append.1 hl with hl | hl
    · exact hfixed after (by simp) line hl
    · rw [List.mem_singleton.1 hl]
      decide
  constructor
  · refine constant?_of_pieces hp (fun line hl => (hfixed before (by simp) line hl).1) ?_
    intro line hl
    rcases List.mem_append.1 hl with hl | hl
    · exact (hfixed between (by simp) line hl).1
    rcases List.mem_cons.1 hl with rfl | hl
    · exact (isPrefixOf_mark_other _).1
    · exact (hlast line hl).1
  · rw [← List.cons_append, ← List.append_assoc] at hp
    refine constant?_of_pieces hp ?_ fun line hl => (hlast line hl).2
    intro line hl
    rcases List.mem_append.1 hl with hl | hl
    · exact (hfixed before (by simp) line hl).2
    rcases List.mem_cons.1 hl with rfl | hl
    · exact (isPrefixOf_mark_other _).2
    · exact (hfixed between (by simp) line hl).2

end Launcher

/-! ## What the module looks for -/

/-- Under its path a content is found alone. -/
theorem filter_path_eq_singleton {members : List Member} (hn : (members.map Member.path).Nodup)
    {path : String} {content : Bytes} (h : ⟨path, content⟩ ∈ members) :
    members.filter (·.path = path) = [⟨path, content⟩] := filter_path_eq hn h

/-- The module and the program are laid out. -/
theorem BuildRequest.mem_members_initModule (r : BuildRequest) (binaryName : String)
    (payload : Bytes) :
    Member.ofText (r.module ++ "/__init__.py") (Launcher.initModule r.version binaryName) ∈
      (r.plan binaryName payload).members := by
  simp [plan, listed]

theorem BuildRequest.mem_members_program (r : BuildRequest) (binaryName : String)
    (payload : Bytes) :
    ⟨(r.plan binaryName payload).binaryPath, payload⟩ ∈ (r.plan binaryName payload).members := by
  simp [plan, listed]

end Wheelwright
