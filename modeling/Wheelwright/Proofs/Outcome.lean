import Wheelwright.Outcome
import Wheelwright.Proofs.Json.Reading
/-!
# Outcomes read back

An outcome is written as an array of its values, or as an object with its fields in any order and
any other fields among them (`Outcome.IsForm`). Whichever it is, and whatever the text of it looks
like, it is read back as it was. What is read of an object are exactly the fields that tell an
outcome (`Outcome.IsToldBy`), so an object with one of them twice, or without a status or a message,
is refused. The main statement is `read_outcome`.
-/

namespace Wheelwright

namespace Outcome

/-! ## Forms -/

/-- The fields of an outcome's record. -/
def recordFields (o : Outcome) : List (String × Json) :=
  [("status", .string o.status.name), ("message", .string o.message), ("details", o.details)]

/-- The names of a record's fields. -/
def fieldNames : List String := ["status", "message", "details"]

/-- The fields are a record of the outcome, where details that are null may be left out. -/
def IsRecord (o : Outcome) (fields : List (String × Json)) : Prop :=
  fields = o.recordFields ∨ o.details = .null ∧ fields = o.recordFields.dropLast

/-- The values that an outcome is written as. -/
inductive IsForm (o : Outcome) : Json → Prop where
  /-- The values of a record in their order. -/
  | array {record : List (String × Json)} (h : o.IsRecord record) :
    IsForm o (.array (record.map (·.2)))
  /-- The fields of a record in any order, and others anywhere among them. -/
  | object {record fields : List (String × Json)} (h : o.IsRecord record)
    (hfields : (fields.filter (·.1 ∈ fieldNames)).Perm record)
    (hothers : ∀ f ∈ fields, f.1 ∉ fieldNames → f.2.isStandard = true) :
    IsForm o (.object fields)

/-- The text is read as the outcome, and so is all that is asked of it. -/
structure ReadsBack (o : Outcome) (text : String) : Prop where
  outcome : read? text = some o
  exitCode : (read? text).map Outcome.exitCode = some o.exitCode
  hint : (read? text).bind hint? = o.hint?
  response : (read? text).map Outcome.response = some o.response

variable {o : Outcome} {v : Json} {text : String} {name : String} {d : Json.Document}
  {docs : List (Option String × Json.Document)} {f : String × Json}
  {fields record : List (String × Json)}

theorem fst_mem_of_mem_recordFields (h : f ∈ o.recordFields) : f.1 ∈ fieldNames := by
  simp only [recordFields, List.mem_cons, List.not_mem_nil, or_false] at h
  rcases h with rfl | rfl | rfl <;> simp [fieldNames]

/-- The fields of a record and no others, in any order. -/
theorem isForm_of_perm (h : fields.Perm o.recordFields) : o.IsForm (.object fields) := by
  have hnames : ∀ f ∈ fields, f.1 ∈ fieldNames :=
    fun f hf => fst_mem_of_mem_recordFields (h.mem_iff.1 hf)
  have hall : fields.filter (·.1 ∈ fieldNames) = fields :=
    List.filter_eq_self.2 fun f hf => decide_eq_true (hnames f hf)
  refine .object (.inl rfl) (hall.symm ▸ h) fun f hf hother => ?_
  exact absurd (hnames f hf) hother

/-- The record that is written has its fields in the order of their names. -/
theorem toJson_eq (o : Outcome) : o.toJson = .object o.recordFields.reverse := by
  have h₁ : "message" < "status" := by decide
  have h₂ : "details" < "message" := by decide
  simp [toJson, recordFields, Json.ofFields, Json.sortFields, Json.setField, h₁, h₂]

theorem IsRecord.isStandard (h : o.IsRecord record) (hd : o.details.isStandard = true)
    (hf : f ∈ record) : f.2.isStandard = true := by
  have hmem : f ∈ o.recordFields := by
    rcases h with rfl | ⟨-, rfl⟩
    · exact hf
    · exact List.dropLast_subset _ hf
  simp only [recordFields, List.mem_cons, List.not_mem_nil, or_false] at hmem
  rcases hmem with rfl | rfl | rfl
  · rfl
  · rfl
  · exact hd

/-- A form is a text of one document, on one line and over several. -/
theorem IsForm.isText (h : o.IsForm v) (hd : o.details.isStandard = true) :
    v.document.IsText v.compact ∧ v.document.IsText v.pretty := by
  cases h with
  | @array record h =>
    have hv : (Json.array (record.map (·.2))).isStandard = true := by
      rcases h with rfl | ⟨-, rfl⟩
      · simp [recordFields, Json.isStandard, Json.itemsStandard, hd]
      · rfl
    exact ⟨Json.isText_compact (Json.writes_compactText _ hv),
      Json.isText_pretty (Json.writes_prettyText 0 _ hv)⟩
  | @object record fields h hfields hothers =>
    have hstandard : Json.fieldsStandard fields = true := by
      refine Json.fieldsStandard_iff.2 fun f hf => ?_
      by_cases hn : f.1 ∈ fieldNames
      · exact h.isStandard hd (hfields.mem_iff.1 (List.mem_filter.2 ⟨hf, decide_eq_true hn⟩))
      · exact hothers f hf hn
    exact ⟨Json.isText_compact (Json.closes_compactObject fields hstandard).writes,
      Json.isText_pretty (Json.closes_prettyObject 0 fields hstandard).writes⟩

/-! ## What fields tell -/

/-- The fields tell the outcome: all have names, and each of its own stands among them once, where
details that are left out are null. -/
structure IsToldBy (o : Outcome) (docs : List (Option String × Json.Document)) : Prop where
  named : docs.any (·.1.isNone) = false
  status : ∃ d, fieldsNamed "status" docs = [d] ∧ statusOf? d = some o.status
  message : ∃ d, fieldsNamed "message" docs = [d] ∧ messageOf? d = some o.message
  details : fieldsNamed "details" docs = [] ∧ o.details = .null ∨
    ∃ d, fieldsNamed "details" docs = [d] ∧ detailsOf? d = some o.details

/-- The outcome that is read from some fields is the one that they tell. -/
theorem ofFields?_eq_some_iff : ofFields? docs = some o ↔ o.IsToldBy docs := by
  constructor
  · intro h
    unfold ofFields? at h
    split at h
    · cases h
    · next hnamed =>
      have hnamed : docs.any (·.1.isNone) = false := Bool.eq_false_iff.2 hnamed
      split at h
      · next s m hs hm hd =>
        split at h
        · next status message hstatus hmessage =>
          cases h
          exact ⟨hnamed, ⟨s, hs, hstatus⟩, ⟨m, hm, hmessage⟩, .inl ⟨hd, rfl⟩⟩
        · cases h
      · next s m d hs hm hd =>
        split at h
        · next status message details hstatus hmessage hdetails =>
          cases h
          exact ⟨hnamed, ⟨s, hs, hstatus⟩, ⟨m, hm, hmessage⟩, .inr ⟨d, hd, hdetails⟩⟩
        · cases h
      · cases h
  · rintro ⟨hnamed, ⟨s, hs, hstatus⟩, ⟨m, hm, hmessage⟩, hdetails⟩
    rw [ofFields?, if_neg (Bool.eq_false_iff.1 hnamed), hs, hm]
    rcases hdetails with ⟨hd, hnull⟩ | ⟨d, hd, hdetails⟩
    · simp only [hd, hstatus, hmessage, ← hnull]
    · simp only [hd, hstatus, hmessage, hdetails]

/-- How often a name is given is how many documents are found under it. -/
theorem length_fieldsNamed (name : String) (docs : List (Option String × Json.Document)) :
    (fieldsNamed name docs).length = (docs.map (·.1)).count (some name) := by
  rw [fieldsNamed, List.length_map, ← List.countP_eq_length_filter, List.count, List.countP_map]
  exact List.countP_congr fun f _ => by simp

/-- A record's own fields are told once. -/
theorem IsToldBy.count_le (h : o.IsToldBy docs) (hn : name ∈ fieldNames) :
    (docs.map (·.1)).count (some name) ≤ 1 := by
  obtain ⟨-, ⟨s, hs, -⟩, ⟨m, hm, -⟩, hdetails⟩ := h
  rw [← length_fieldsNamed]
  simp only [fieldNames, List.mem_cons, List.not_mem_nil, or_false] at hn
  rcases hn with rfl | rfl | rfl
  · rw [hs]
    rfl
  · rw [hm]
    rfl
  · rcases hdetails with ⟨hd, -⟩ | ⟨d, hd, -⟩
    · rw [hd]
      exact Nat.zero_le 1
    · rw [hd]
      rfl

/-- The status and the message are told. -/
theorem IsToldBy.mem (h : o.IsToldBy docs) (hn : name ∈ ["status", "message"]) :
    some name ∈ docs.map (·.1) := by
  obtain ⟨-, ⟨s, hs, -⟩, ⟨m, hm, -⟩, -⟩ := h
  rw [← List.count_pos_iff, ← length_fieldsNamed]
  simp only [List.mem_cons, List.not_mem_nil, or_false] at hn
  rcases hn with rfl | rfl
  · rw [hs]
    exact Nat.one_pos
  · rw [hm]
    exact Nat.one_pos

/-- What some fields tell is told by all that agree on the fields of a record, in any order. -/
theorem IsToldBy.of_perm {docs' : List (Option String × Json.Document)} (h : o.IsToldBy docs)
    (hnamed : docs'.any (·.1.isNone) = false)
    (hperm : ∀ name ∈ fieldNames, (fieldsNamed name docs').Perm (fieldsNamed name docs)) :
    o.IsToldBy docs' := by
  obtain ⟨-, ⟨s, hs, hstatus⟩, ⟨m, hm, hmessage⟩, hdetails⟩ := h
  simp only [fieldNames, List.forall_mem_cons, hs, hm, List.perm_singleton] at hperm
  obtain ⟨hs', hm', hd', -⟩ := hperm
  refine ⟨hnamed, ⟨s, hs', hstatus⟩, ⟨m, hm', hmessage⟩, ?_⟩
  rcases hdetails with ⟨hd, hnull⟩ | ⟨d, hd, hdetails⟩
  · rw [hd, List.perm_nil] at hd'
    exact .inl ⟨hd', hnull⟩
  · rw [hd, List.perm_singleton] at hd'
    exact .inr ⟨d, hd', hdetails⟩

/-! ## Written outcomes -/

theorem named_fieldDocuments (fields : List (String × Json)) :
    (Json.fieldDocuments fields).any (·.1.isNone) = false := by
  rw [Json.fieldDocuments_eq_map, List.any_map, List.any_eq_false]
  exact fun _ _ => Bool.false_ne_true

theorem fieldsNamed_fieldDocuments (name : String) (fields : List (String × Json)) :
    fieldsNamed name (Json.fieldDocuments fields) =
      (fields.filter (·.1 = name)).map (·.2.document) := by
  rw [fieldsNamed, Json.fieldDocuments_eq_map, List.filter_map, List.map_map]
  simp only [Function.comp_def, Option.some.injEq]

/-- The fields with a name in a record are those among all fields. -/
theorem perm_fieldsNamed (hfields : (fields.filter (·.1 ∈ fieldNames)).Perm record)
    (hn : name ∈ fieldNames) : (fieldsNamed name (Json.fieldDocuments fields)).Perm
      (fieldsNamed name (Json.fieldDocuments record)) := by
  -- whoever has the name has one of the names of a record
  have hfilter : fields.filter (·.1 = name) =
      (fields.filter (·.1 ∈ fieldNames)).filter (·.1 = name) := by
    rw [List.filter_filter]
    refine List.filter_congr fun f _ => ?_
    by_cases hf : f.1 = name
    · simp [hf, hn]
    · simp [hf]
  rw [fieldsNamed_fieldDocuments, fieldsNamed_fieldDocuments, hfilter]
  exact (hfields.filter _).map _

theorem statusOf?_name (s : Status) : statusOf? (.string (some s.name)) = some s := by
  cases s <;> rfl

/-- A record tells its outcome. -/
theorem IsRecord.isToldBy (h : o.IsRecord record) (hd : o.details.isStandard = true)
    (hh : o.details.height < Json.deepest) : o.IsToldBy (Json.fieldDocuments record) := by
  have hdetails : detailsOf? o.details.document = some o.details :=
    Json.value?_document o.details hd (Nat.le_sub_one_of_lt hh)
  refine ⟨named_fieldDocuments record, ⟨_, ?_, statusOf?_name o.status⟩,
    ⟨.string (some o.message), ?_, rfl⟩, ?_⟩
  · rcases h with rfl | ⟨-, rfl⟩ <;>
      simp [fieldsNamed_fieldDocuments, recordFields, Json.document]
  · rcases h with rfl | ⟨-, rfl⟩ <;>
      simp [fieldsNamed_fieldDocuments, recordFields, Json.document]
  · rcases h with rfl | ⟨hnull, rfl⟩
    · refine .inr ⟨o.details.document, ?_, hdetails⟩
      simp [fieldsNamed_fieldDocuments, recordFields]
    · refine .inl ⟨?_, hnull⟩
      simp [fieldsNamed_fieldDocuments, recordFields]

/-- The document of a form is read as its outcome. -/
theorem IsForm.ofDocument?_eq (h : o.IsForm v) (hd : o.details.isStandard = true)
    (hh : o.details.height < Json.deepest) : ofDocument? v.document = some o := by
  cases h with
  | @array record h =>
    have hrecord := ofFields?_eq_some_iff.2 (h.isToldBy hd hh)
    rcases h with rfl | ⟨-, rfl⟩
    · exact hrecord
    · exact hrecord
  | @object record fields h hfields hothers =>
    refine ofFields?_eq_some_iff.2 ((h.isToldBy hd hh).of_perm (named_fieldDocuments fields) ?_)
    exact fun name => perm_fieldsNamed hfields

theorem read?_of_isText (h : d.IsText text) : read? text = ofDocument? d := by
  rw [read?, Json.Document.read?_of_tokens h, Option.bind_some]

/-- An outcome reads back. -/
theorem readsBack_of_read? (h : read? text = some o) : o.ReadsBack text := by
  constructor
  case outcome => exact h
  all_goals
    rw [h]
    rfl

end Outcome

/-- An outcome whose details nest fewer containers than a reader follows, and have 64-bit integers
for their numbers, is read back from every text of each of its forms, one of which is the record
that is written for it. A text of an object that has one of the three fields twice, or no status, or
no message, is refused, whatever else it holds. -/
theorem read_outcome :
    (∀ o : Outcome, o.details.isStandard = true → o.details.height < Json.deepest →
      o.IsForm o.toJson ∧ (∀ fields, fields.Perm o.recordFields → o.IsForm (.object fields)) ∧
      ∀ v, o.IsForm v → v.document.IsText v.compact ∧ v.document.IsText v.pretty ∧
        ∀ text, v.document.IsText text → o.ReadsBack text) ∧
    ∀ (fields : List (Option String × Json.Document)) (text : String),
      (Json.Document.object fields).IsText text →
      (∃ name ∈ Outcome.fieldNames, 2 ≤ (fields.map (·.1)).count (some name)) ∨
        (∃ name ∈ ["status", "message"], some name ∉ fields.map (·.1)) →
      Outcome.read? text = none := by
  refine ⟨fun o hd hh => ⟨?_, fun _ => Outcome.isForm_of_perm, fun v hv => ?_⟩,
    fun fields text htext hfaulty => ?_⟩
  · rw [o.toJson_eq]
    exact Outcome.isForm_of_perm (List.reverse_perm _)
  · obtain ⟨hcompact, hpretty⟩ := hv.isText hd
    refine ⟨hcompact, hpretty, fun text htext => Outcome.readsBack_of_read? ?_⟩
    rw [Outcome.read?_of_isText htext, hv.ofDocument?_eq hd hh]
  · rw [Outcome.read?_of_isText htext]
    refine Option.eq_none_iff_forall_ne_some.2 fun o ho => ?_
    have htold := Outcome.ofFields?_eq_some_iff.1 ho
    rcases hfaulty with ⟨name, hn, htwice⟩ | ⟨name, hn, hmissing⟩
    · exact Nat.not_succ_le_self 1 (htwice.trans (htold.count_le hn))
    · exact hmissing (htold.mem hn)

/-! ## An outcome among other fields -/

namespace Shuffled

/-- A value within so many arrays. -/
def nested : Nat → Json → Json
  | 0, v => v
  | n + 1, v => .array [nested n v]

/-- An outcome with a hundred containers around the least integer that 64 bits can hold, and with
the greatest one. -/
def outcome : Outcome where
  status := .userError
  message := "a \"𝄞\"\n\x01\\"
  details := .object [("hint", .string "again"), ("least", nested 99 (.integer (-Json.signBound))),
    ("most", .integer (Json.wordBound - 1))]

/-- The outcome's fields among others. -/
def fields : List (String × Json) :=
  [("note", .object [("status", .null)]), ("details", outcome.details), ("note", .bool true),
    ("message", .string outcome.message), ("status", .string "UserError"), ("", .array [])]

/-- The same fields and one more status. -/
def doubled : List (String × Json) := fields ++ [("status", .string "UserError")]

theorem isStandard_nested (n : Nat) (v : Json) : (nested n v).isStandard = v.isStandard := by
  induction n with
  | zero => rfl
  | succ n ih => simp [nested, Json.isStandard, Json.itemsStandard, ih]

theorem height_nested (n : Nat) (v : Json) : (nested n v).height = v.height + n := by
  induction n with
  | zero => rfl
  | succ n ih =>
    simp only [nested, Json.height, Json.itemsHeight, ih]
    omega

theorem isStandard_details : outcome.details.isStandard = true := by
  have hleast : (nested 99 (.integer (-Json.signBound))).isStandard = true := by
    rw [isStandard_nested]
    decide
  have hmost : Json.isWord (Json.wordBound - 1) = true := by decide
  have hfirst : "hint" < "least" := by decide
  have hsecond : "least" < "most" := by decide
  simp [outcome, Json.isStandard, Json.inOrder, Json.fieldsStandard, hleast, hmost, hfirst, hsecond]

theorem height_details : outcome.details.height = 100 := by
  simp [outcome, Json.height, Json.fieldsHeight, height_nested]

theorem fieldsStandard_doubled : Json.fieldsStandard doubled = true := by
  simp [doubled, fields, Json.fieldsStandard, Json.isStandard, Json.inOrder, Json.itemsStandard,
    isStandard_details]

theorem isForm_fields : outcome.IsForm (.object fields) := by
  refine .object (.inl rfl) (List.reverse_perm outcome.recordFields) fun f hf _ => ?_
  exact Json.fieldsStandard_iff.1 fieldsStandard_doubled f (List.mem_append_left _ hf)

end Shuffled

/-- The outcome is read from among the other fields, and not with two statuses. -/
theorem read_outcome_shuffled :
    (Shuffled.outcome.details.isStandard = true ∧ Shuffled.outcome.details.height = 100 ∧
      Shuffled.outcome.IsForm (.object Shuffled.fields) ∧
      Shuffled.outcome.ReadsBack (Json.object Shuffled.fields).pretty) ∧
    (Json.document (.object Shuffled.doubled)).IsText (Json.object Shuffled.doubled).compact ∧
      Outcome.read? (Json.object Shuffled.doubled).compact = none := by
  have hh : Shuffled.outcome.details.height < Json.deepest := by
    rw [Shuffled.height_details]
    decide
  have hforms := (read_outcome.1 Shuffled.outcome Shuffled.isStandard_details hh).2.2
  obtain ⟨-, hpretty, hread⟩ := hforms _ Shuffled.isForm_fields
  have htext := Json.isText_compact
    (Json.closes_compactObject Shuffled.doubled Shuffled.fieldsStandard_doubled).writes
  have hnone := read_outcome.2 _ _ htext (.inl ⟨"status", by decide, by decide⟩)
  exact ⟨⟨Shuffled.isStandard_details, Shuffled.height_details, Shuffled.isForm_fields,
    hread _ hpretty⟩, htext, hnone⟩

end Wheelwright
