import Wheelwright.Metadata
/-!
# The core metadata read back

Every value stands on the line of its header, so that the descriptor is read back as it was written,
whatever the values are (`CoreMetadata.read?_render`). The three headers that are always there have
names of their own, and no value can add to them (`CoreMetadata.values_eq`).

The same is said of the bare text, without a reader of headers: cut at its first blank line it has
one line for every field that is there, in the order of the fields, and the long description after
them, and no value can add a line, take one away or change the line of another field
(`read_metadata`).
-/

namespace Wheelwright

namespace HeaderText

/-- The values that a text has for a header, in order. -/
def values (t : HeaderText) (name : String) : List String :=
  (t.headers.filter (·.1 = name)).map (·.2)

/-- Headers that keep to their lines are the lines. -/
theorem pieces_block {headers : List (String × String)} (h : IsTidy headers) :
    Split.pieces '\n' (block headers) = headers.map line ++ [[]] := by
  induction headers with
  | nil => rfl
  | cons a headers ih =>
    have ha := h a List.mem_cons_self
    have hl : '\n' ∉ line a := by simp [line, ha.2]
    rw [block, List.flatMap_cons, List.append_assoc, List.singleton_append,
      Split.pieces_append_cons hl, ← block, ih fun b hb => h b (List.mem_cons_of_mem a hb),
      List.map_cons, List.cons_append]

/-! ### Cutting at the first blank line -/

/-- The lines of some pieces between line ends up to the first blank line, and the pieces after it.
An empty last piece is the end of the text and no blank line. -/
def upToBlank : List (List Char) → List (List Char) × Option (List (List Char))
  | [] => ([], none)
  | [last] => (if last = [] then [] else [last], none)
  | [] :: rest => ([], some rest)
  | first :: rest => (first :: (upToBlank rest).1, (upToBlank rest).2)

/-- The lines of a text up to its first blank line, and the text after it, if there is one. -/
def cutAtBlank (text : String) : List String × Option String :=
  let cut := upToBlank (Split.pieces '\n' text.toList)
  (cut.1.map String.ofList, cut.2.map fun rest => String.ofList (Split.glue '\n' rest))

theorem upToBlank_cons {first : List Char} (h : first ≠ []) {rest : List (List Char)}
    (hr : rest ≠ []) :
    upToBlank (first :: rest) = (first :: (upToBlank rest).1, (upToBlank rest).2) := by
  cases rest with
  | nil => exact absurd rfl hr
  | cons next rest =>
    cases first with
    | nil => exact absurd rfl h
    | cons c first => rfl

/-- Headers that keep to their lines are the lines before whatever follows them. -/
theorem upToBlank_block {headers : List (String × String)} (h : IsTidy headers) (cs : List Char) :
    upToBlank (Split.pieces '\n' (block headers ++ cs)) =
      (headers.map line ++ (upToBlank (Split.pieces '\n' cs)).1,
        (upToBlank (Split.pieces '\n' cs)).2) := by
  induction headers with
  | nil => rfl
  | cons a headers ih =>
    have ha := h a List.mem_cons_self
    have hl : '\n' ∉ line a := by simp [line, ha.2]
    have hne : line a ≠ [] := by simp [line]
    rw [block, List.flatMap_cons, List.append_assoc, List.append_assoc, List.singleton_append,
      Split.pieces_append_cons hl, ← block, upToBlank_cons hne (Split.pieces_ne_nil _ _),
      ih fun b hb => h b (List.mem_cons_of_mem a hb)]
    rfl

/-- Cut at its first blank line, a text with headers that keep to their lines gives these lines and
the body. -/
theorem cutAtBlank_render (t : HeaderText) (h : IsTidy t.headers) :
    cutAtBlank t.render = (t.headers.map fun header => String.ofList (line header), t.body) := by
  obtain ⟨headers, body⟩ := t
  unfold cutAtBlank render
  rw [String.toList_ofList, upToBlank_block h]
  cases body with
  | none => simp [Split.pieces, upToBlank]
  | some body =>
    have hb : upToBlank (Split.pieces '\n' ('\n' :: body.toList)) =
        ([], some (Split.pieces '\n' body.toList)) := by
      rw [Split.pieces, if_pos rfl]
      cases hp : Split.pieces '\n' body.toList with
      | nil => exact absurd hp (Split.pieces_ne_nil _ _)
      | cons p ps => rfl
    simp [hb]

end HeaderText

namespace CoreMetadata

/-! ## Values on one line -/

theorem headerChar_of_ne {c : Char} (hr : c ≠ '\r') (hn : c ≠ '\n') : headerChar c = c := by
  simp [headerChar, hr, hn]

/-- A line end becomes a space, and nothing becomes a line end. -/
theorem headerChar_ne (c : Char) : headerChar c ≠ '\r' ∧ headerChar c ≠ '\n' := by
  unfold headerChar
  split
  · decide
  · next h =>
    simp only [Bool.or_eq_true, decide_eq_true_eq, not_or] at h
    exact h

@[simp] theorem toList_headerValue (value : String) :
    (headerValue value).toList = value.toList.map headerChar := by
  simp [headerValue]

/-- A value in a header has no line end. -/
theorem not_mem_headerValue (value : String) :
    '\r' ∉ (headerValue value).toList ∧ '\n' ∉ (headerValue value).toList := by
  rw [toList_headerValue]
  constructor
  · intro h
    obtain ⟨c, -, hc⟩ := List.mem_map.1 h
    exact (headerChar_ne c).1 hc
  · intro h
    obtain ⟨c, -, hc⟩ := List.mem_map.1 h
    exact (headerChar_ne c).2 hc

/-- A value stands in a header as it is exactly if it has no line end. -/
theorem headerValue_eq_self_iff (value : String) :
    headerValue value = value ↔ '\r' ∉ value.toList ∧ '\n' ∉ value.toList := by
  constructor
  · intro h
    rw [← h]
    exact not_mem_headerValue value
  · rintro ⟨hr, hn⟩
    apply String.toList_inj.1
    rw [toList_headerValue]
    refine (List.map_congr_left fun c hc => headerChar_of_ne ?_ ?_).trans (List.map_id' _)
    · rintro rfl
      exact hr hc
    · rintro rfl
      exact hn hc

/-! ## The headers -/

/-- The headers that are there only with a value. -/
def optionalHeaders (m : CoreMetadata) : List (String × String) :=
  optionalHeader "Summary" m.summary ++ (optionalHeader "Home-page" m.homePage ++
    (optionalHeader "Author" m.author ++ (optionalHeader "License" m.license ++
      optionalHeader "Description-Content-Type" (m.longDescription.map fun _ => "text/markdown"))))

/-- Their names. -/
def optionalNames : List String :=
  ["Summary", "Home-page", "Author", "License", "Description-Content-Type"]

variable (m : CoreMetadata)

theorem headers_eq : m.headers =
    [("Metadata-Version", "2.1"), ("Name", m.name), ("Version", m.version)] ++
      m.optionalHeaders := by
  simp only [headers, optionalHeaders, List.append_assoc]

theorem fst_of_mem_optionalHeader {field : String} {value : Option String} {h : String × String}
    (hm : h ∈ optionalHeader field value) : h.1 = field := by
  cases value with
  | none => cases hm
  | some v => rw [List.mem_singleton.1 hm]

theorem fst_mem_optionalNames {h : String × String} (hm : h ∈ m.optionalHeaders) :
    h.1 ∈ optionalNames := by
  simp only [optionalHeaders, List.mem_append] at hm
  rcases hm with hm | hm | hm | hm | hm <;>
    (rw [fst_of_mem_optionalHeader hm]; decide)

/-- Every header keeps to its line. -/
theorem isTidy_headerText : HeaderText.IsTidy m.headerText.headers := by
  intro t ht
  obtain ⟨h, hm, rfl⟩ := List.mem_map.1 ht
  have hnames : ∀ name ∈ ["Metadata-Version", "Name", "Version"] ++ optionalNames,
      ':' ∉ name.toList ∧ '\n' ∉ name.toList := by decide
  have hname : h.1 ∈ ["Metadata-Version", "Name", "Version"] ++ optionalNames := by
    rw [headers_eq, List.mem_append] at hm
    rcases hm with hm | hm
    · exact List.mem_append_left _ (List.mem_map_of_mem hm)
    · exact List.mem_append_right _ (m.fst_mem_optionalNames hm)
  exact ⟨(hnames _ hname).1, (hnames _ hname).2, (not_mem_headerValue h.2).2⟩

/-- The descriptor is read back as it was written. -/
theorem read?_render : HeaderText.read? m.render = some m.headerText :=
  HeaderText.read?_render _ m.isTidy_headerText

/-- A header that is always there has the values that stand there for it, and no others. -/
theorem values_eq {name : String} (h : name ∉ optionalNames) : m.headerText.values name =
    (([("Metadata-Version", "2.1"), ("Name", m.name), ("Version", m.version)].map tidy).filter
      (·.1 = name)).map (·.2) := by
  have ho : (m.optionalHeaders.map tidy).filter (·.1 = name) = [] := by
    apply List.filter_eq_nil_iff.2
    intro t ht he
    obtain ⟨o, hm, rfl⟩ := List.mem_map.1 ht
    have hn : o.1 = name := of_decide_eq_true he
    exact h (hn ▸ m.fst_mem_optionalNames hm)
  rw [HeaderText.values, headerText, headers_eq, List.map_append, List.filter_append, ho,
    List.append_nil]

theorem values_name : m.headerText.values "Name" = [headerValue m.name] := by
  rw [values_eq m (by decide)]
  rfl

theorem values_version : m.headerText.values "Version" = [headerValue m.version] := by
  rw [values_eq m (by decide)]
  rfl

/-! ## The text cut at its first blank line -/

/-- Every field of the core metadata by the name of its header, in the order of the headers, with
its value if it has one. That there is a long description is itself a field. -/
def fields : List (String × Option String) :=
  [("Metadata-Version", some "2.1"), ("Name", some m.name), ("Version", some m.version),
    ("Summary", m.summary), ("Home-page", m.homePage), ("Author", m.author),
    ("License", m.license),
    ("Description-Content-Type", m.longDescription.map fun _ => "text/markdown")]

/-- A field's line: its name, and its value with a space for every line end. -/
def fieldLine (name value : String) : String :=
  name ++ ": " ++ String.ofList (value.toList.map fun c => if c ∈ ['\r', '\n'] then ' ' else c)

theorem fieldLine_eq (name value : String) :
    fieldLine name value = name ++ ": " ++ headerValue value := by
  have hchar : headerChar = fun c => if c ∈ ['\r', '\n'] then ' ' else c := by
    funext c
    simp [headerChar]
  rw [fieldLine, headerValue, hchar]

/-- The line that a field has, if it has a value. -/
def fieldLine? (field : String × Option String) : Option String := field.2.map (fieldLine field.1)

theorem filterMap_optional (name : String) (value : Option String)
    (rest : List (String × Option String)) :
    ((name, value) :: rest).filterMap fieldLine? =
      (optionalHeader name value).map (fun h => fieldLine h.1 h.2) ++
        rest.filterMap fieldLine? := by
  cases value <;> rfl

/-- The headers' lines are the fields' lines. -/
theorem map_line_headers :
    m.headerText.headers.map (fun h => String.ofList (HeaderText.line h)) =
      m.fields.filterMap fieldLine? := by
  have hline : ∀ h : String × String,
      String.ofList (HeaderText.line (tidy h)) = fieldLine h.1 h.2 := by
    intro h
    apply String.toList_inj.1
    simp [HeaderText.line, tidy, fieldLine_eq]
  have hm : m.headerText.headers.map (fun h => String.ofList (HeaderText.line h)) =
      m.headers.map fun h => fieldLine h.1 h.2 := by
    rw [headerText, List.map_map]
    exact List.map_congr_left fun h _ => hline h
  rw [hm]
  simp only [headers, fields, filterMap_optional, List.map_append, List.filterMap_nil,
    List.append_assoc, List.append_nil]
  rfl

/-- Whether a line is the line of a header with a name. -/
def isLineOf (name line : String) : Bool := (name.toList ++ [':']).isPrefixOf line.toList

/-- A field's line is the line of no other header. -/
theorem isLineOf_fieldLine {name other : String} (hn : ':' ∉ name.toList) (ho : ':' ∉ other.toList)
    (value : String) : isLineOf name (fieldLine other value) = true ↔ other = name := by
  have hl : (fieldLine other value).toList =
      other.toList ++ ':' :: ' ' :: (headerValue value).toList := by
    simp [fieldLine_eq]
  unfold isLineOf
  rw [List.isPrefixOf_iff_prefix, hl]
  constructor
  · rintro ⟨rest, hr⟩
    rw [List.append_assoc, List.singleton_append] at hr
    -- both names end where the first colon stands
    have hp := congrArg (fun cs => (Split.pieces ':' cs).head?) hr
    simp only [Split.pieces_append_cons hn, Split.pieces_append_cons ho, List.head?_cons] at hp
    exact String.toList_inj.1 (Option.some.inj hp).symm
  · rintro rfl
    exact ⟨' ' :: (headerValue value).toList, by simp⟩

/-- Of the lines of some fields with different names, those of a header are the line of its own
field. -/
theorem filter_isLineOf {fields : List (String × Option String)}
    (hn : (fields.map (·.1)).Nodup) (hc : ∀ f ∈ fields, ':' ∉ f.1.toList) {name : String}
    (h : ':' ∉ name.toList) : (fields.filterMap fieldLine?).filter (isLineOf name) =
      ((fields.lookup name).join.map (fieldLine name)).toList := by
  induction fields with
  | nil => rfl
  | cons f rest ih =>
    obtain ⟨other, value⟩ := f
    rw [List.map_cons, List.nodup_cons] at hn
    have ho := hc _ List.mem_cons_self
    have hrest := ih hn.2 fun f hf => hc f (List.mem_cons_of_mem _ hf)
    have hfirst : ∀ v, isLineOf name (fieldLine other v) = decide (other = name) := by
      intro v
      rw [Bool.eq_iff_iff, isLineOf_fieldLine h ho, decide_eq_true_iff]
    by_cases he : other = name
    · subst he
      have hl : rest.lookup other = none := by
        rw [List.lookup_eq_none_iff]
        intro f hf
        rw [bne_iff_ne]
        intro hk
        exact hn.1 (hk ▸ List.mem_map_of_mem (f := (·.1)) hf)
      rw [hl] at hrest
      cases value with
      | none => simpa [fieldLine?] using hrest
      | some v => simpa [fieldLine?, hfirst] using hrest
    · have hb : (name == other) = false := beq_eq_false_iff_ne.2 (Ne.symm he)
      rw [List.lookup_cons, hb, ← hrest]
      cases value with
      | none => rfl
      | some v => simp [fieldLine?, hfirst, he]

theorem nodup_fields : (m.fields.map (·.1)).Nodup := by
  have h : ["Metadata-Version", "Name", "Version", "Summary", "Home-page", "Author", "License",
      "Description-Content-Type"].Nodup := by decide
  exact h

theorem not_mem_of_mem_fields {field : String × Option String} (h : field ∈ m.fields) :
    ':' ∉ field.1.toList ∧ '\r' ∉ field.1.toList ∧ '\n' ∉ field.1.toList := by
  have hall : ∀ name ∈ ["Metadata-Version", "Name", "Version", "Summary", "Home-page", "Author",
      "License", "Description-Content-Type"],
      ':' ∉ name.toList ∧ '\r' ∉ name.toList ∧ '\n' ∉ name.toList := by decide
  exact hall _ (List.mem_map_of_mem (f := (·.1)) h)

end CoreMetadata

/-- Cut at its first blank line the descriptor is a block of headers and, exactly if there is a long
description, a body. The block has the line of every field with a value, in order, and no others; no
line has a line end inside; and whatever the values are, the lines of a header are the line of its
own field. The body is the long description, with a line end after it unless it ends in one. -/
theorem read_metadata (m : CoreMetadata) :
    ∃ lines body, HeaderText.cutAtBlank m.render = (lines, body) ∧
      lines = m.fields.filterMap CoreMetadata.fieldLine? ∧
      body = m.longDescription.map
        (fun text => if text.toList.getLast? = some '\n' then text else text ++ "\n") ∧
      (∀ line ∈ lines, '\r' ∉ line.toList ∧ '\n' ∉ line.toList) ∧
      ∀ name, ':' ∉ name.toList → lines.filter (CoreMetadata.isLineOf name) =
        ((m.fields.lookup name).join.map (CoreMetadata.fieldLine name)).toList := by
  have hcut := HeaderText.cutAtBlank_render m.headerText m.isTidy_headerText
  rw [m.map_line_headers] at hcut
  refine ⟨_, _, hcut, rfl, rfl, ?_, ?_⟩
  · intro line hl
    obtain ⟨field, hf, hv⟩ := List.mem_filterMap.1 hl
    obtain ⟨value, -, rfl⟩ := Option.map_eq_some_iff.1 hv
    obtain ⟨-, hr, hn⟩ := m.not_mem_of_mem_fields hf
    obtain ⟨hvr, hvn⟩ := CoreMetadata.not_mem_headerValue value
    simp only [CoreMetadata.fieldLine_eq, String.toList_append, List.mem_append, not_or]
    exact ⟨⟨⟨hr, by decide⟩, hvr⟩, ⟨⟨hn, by decide⟩, hvn⟩⟩
  · intro name hname
    exact CoreMetadata.filter_isLineOf m.nodup_fields
      (fun f hf => (m.not_mem_of_mem_fields hf).1) hname

end Wheelwright
