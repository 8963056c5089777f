import Wheelwright.Proofs.Json.Building
import Wheelwright.Proofs.Json.Fields
import Wheelwright.Proofs.Json.Words
/-!
# Reading what was written

A value with its objects in order and 64-bit integers for its numbers is written in the words of one
document, on one line (`writes_compactText`) or over several (`writes_prettyText`), and the
document's value is the value that was written (`read?_pretty`). No more than a reader follows may
be nested in it. An object is written as one document whatever the order of its own fields.
-/

namespace Wheelwright.Json

mutual

/-- The document that a value is written as. One in floating point is not followed here: it counts
as a document without a value. -/
def document : Json → Document
  | .null => .null
  | .bool b => .bool b
  | .integer n => .number (.ofInt n)
  | .float _ => .string none
  | .string s => .string (some s)
  | .array items => .array (documents items)
  | .object fields => .object (fieldDocuments fields)

/-- The documents that some values are written as. -/
def documents : List Json → List Document
  | [] => []
  | v :: vs => v.document :: documents vs

/-- The fields that some fields are written as. -/
def fieldDocuments : List (String × Json) → List (Option String × Document)
  | [] => []
  | (name, v) :: fs => (some name, v.document) :: fieldDocuments fs

end

theorem fieldDocuments_eq_map (fields : List (String × Json)) :
    fieldDocuments fields = fields.map fun f => (some f.1, f.2.document) := by
  induction fields with
  | nil => rfl
  | cons f fields ih => rw [fieldDocuments, ih, List.map_cons]

/-- The text spells out the document, with any blanks between its words and any escapes in its
strings. -/
def Document.IsText (d : Document) (text : String) : Prop := tokens text.toList = some d.words

/-! ## Words -/

theorem writes_null : Writes "null".toList [.null] := by
  have hlower : ∀ c ∈ ['u', 'l', 'l'], c.isLower = true := List.all_eq_true.1 rfl
  have h : Writes ('n' :: ['u', 'l', 'l']) [.null] := writes_word rfl hlower rfl
  exact h

theorem writes_true : Writes "true".toList [.bool true] := by
  have hlower : ∀ c ∈ ['r', 'u', 'e'], c.isLower = true := List.all_eq_true.1 rfl
  have h : Writes ('t' :: ['r', 'u', 'e']) [.bool true] := writes_word rfl hlower rfl
  exact h

theorem writes_false : Writes "false".toList [.bool false] := by
  have hlower : ∀ c ∈ ['a', 'l', 's', 'e'], c.isLower = true := List.all_eq_true.1 rfl
  have h : Writes ('f' :: ['a', 'l', 's', 'e']) [.bool false] := writes_word rfl hlower rfl
  exact h

theorem closes_emptyArray : Closes ['[', ']'] [.openBracket, .closeBracket] :=
  (closes_singleton (c := '[') rfl).append (closes_singleton (c := ']') rfl)

theorem closes_emptyObject : Closes ['\x7b', '\x7d'] [.openBrace, .closeBrace] :=
  (closes_singleton (c := '\x7b') rfl).append (closes_singleton (c := '\x7d') rfl)

/-! ## Over several lines -/

/-- What stands between a field's name and its value. -/
theorem closes_colon : Closes [':', ' '] [.colon] :=
  (closes_singleton (c := ':') rfl).append (closes_singleton (c := ' ') rfl)

theorem apart_prettyItems (level : Nat) (items : List Json) (rest : List Char) :
    Apart (prettyItems level items ++ rest) := by
  cases items with
  | nil => exact apart_cons rfl rfl _
  | cons _ _ => exact apart_cons rfl rfl _

theorem apart_prettyFields (level : Nat) (fields : List (String × Json)) (rest : List Char) :
    Apart (prettyFields level fields ++ rest) := by
  cases fields with
  | nil => exact apart_cons rfl rfl _
  | cons _ _ => exact apart_cons rfl rfl _

mutual

/-- A value over several lines is the words of its document. -/
theorem writes_prettyText (level : Nat) (v : Json) (hv : v.isStandard = true) :
    Writes (prettyText level v) v.document.words := by
  match v with
  | .null => exact writes_null
  | .bool true => exact writes_true
  | .bool false => exact writes_false
  | .integer n => exact writes_integerText n
  | .float x => cases hv
  | .string s => exact (closes_quoted s).writes
  | .array [] => exact closes_emptyArray.writes
  | .array (item :: items) =>
    simp only [isStandard, itemsStandard, Bool.and_eq_true] at hv
    have hopen : Closes ('[' :: newLine (level + 1)) [.openBracket] :=
      (closes_singleton (c := '[') rfl).append (closes_newLine _)
    -- an item may end in a number, which is over only where the comma or the new line comes
    have hitem := hopen.append_writes (writes_prettyText (level + 1) item hv.1)
    exact (hitem.append_closes (closes_prettyItems level items hv.2)
      (apart_prettyItems level items)).writes
  | .object fields =>
    simp only [isStandard, Bool.and_eq_true] at hv
    exact (closes_prettyObject level fields hv.2).writes

/-- So is an object whose fields are not in order. -/
theorem closes_prettyObject (level : Nat) (fields : List (String × Json))
    (hfields : fieldsStandard fields = true) :
    Closes (prettyText level (.object fields)) (document (.object fields)).words := by
  match fields with
  | [] => exact closes_emptyObject
  | (name, w) :: fields =>
    simp only [fieldsStandard, Bool.and_eq_true] at hfields
    have hopen : Closes ('\x7b' :: newLine (level + 1)) [.openBrace] :=
      (closes_singleton (c := '\x7b') rfl).append (closes_newLine _)
    have hname := (hopen.append (closes_quoted name)).append closes_colon
    have hvalue := hname.append_writes (writes_prettyText (level + 1) w hfields.1)
    exact hvalue.append_closes (closes_prettyFields level fields hfields.2)
      (apart_prettyFields level fields)

theorem closes_prettyItems (level : Nat) (items : List Json) (hitems : itemsStandard items = true) :
    Closes (prettyItems level items) (itemWords (documents items)) := by
  match items with
  | [] => exact (closes_newLine level).append (closes_singleton rfl)
  | item :: items =>
    simp only [itemsStandard, Bool.and_eq_true] at hitems
    have hcomma : Closes (',' :: newLine (level + 1)) [.comma] :=
      (closes_singleton (c := ',') rfl).append (closes_newLine _)
    have hitem := hcomma.append_writes (writes_prettyText (level + 1) item hitems.1)
    exact hitem.append_closes (closes_prettyItems level items hitems.2)
      (apart_prettyItems level items)

theorem closes_prettyFields (level : Nat) (fields : List (String × Json))
    (hfields : fieldsStandard fields = true) :
    Closes (prettyFields level fields) (fieldWords (fieldDocuments fields)) := by
  match fields with
  | [] => exact (closes_newLine level).append (closes_singleton rfl)
  | (name, w) :: fields =>
    simp only [fieldsStandard, Bool.and_eq_true] at hfields
    have hcomma : Closes (',' :: newLine (level + 1)) [.comma] :=
      (closes_singleton (c := ',') rfl).append (closes_newLine _)
    have hname := (hcomma.append (closes_quoted name)).append closes_colon
    have hvalue := hname.append_writes (writes_prettyText (level + 1) w hfields.1)
    exact hvalue.append_closes (closes_prettyFields level fields hfields.2)
      (apart_prettyFields level fields)

end

/-! ## On one line -/

theorem apart_compactItems (items : List Json) (rest : List Char) :
    Apart (compactItems items ++ rest) := by
  cases items with
  | nil => exact apart_cons rfl rfl _
  | cons _ _ => exact apart_cons rfl rfl _

theorem apart_compactFields (fields : List (String × Json)) (rest : List Char) :
    Apart (compactFields fields ++ rest) := by
  cases fields with
  | nil => exact apart_cons rfl rfl _
  | cons _ _ => exact apart_cons rfl rfl _

mutual

/-- A value on one line is the words of its document. -/
theorem writes_compactText (v : Json) (hv : v.isStandard = true) :
    Writes (compactText v) v.document.words := by
  match v with
  | .null => exact writes_null
  | .bool true => exact writes_true
  | .bool false => exact writes_false
  | .integer n => exact writes_integerText n
  | .float x => cases hv
  | .string s => exact (closes_quoted s).writes
  | .array [] => exact closes_emptyArray.writes
  | .array (item :: items) =>
    simp only [isStandard, itemsStandard, Bool.and_eq_true] at hv
    have hopen : Closes ['['] [.openBracket] := closes_singleton rfl
    have hitem := hopen.append_writes (writes_compactText item hv.1)
    exact (hitem.append_closes (closes_compactItems items hv.2) (apart_compactItems items)).writes
  | .object fields =>
    simp only [isStandard, Bool.and_eq_true] at hv
    exact (closes_compactObject fields hv.2).writes

/-- So is an object whose fields are not in order. -/
theorem closes_compactObject (fields : List (String × Json))
    (hfields : fieldsStandard fields = true) :
    Closes (compactText (.object fields)) (document (.object fields)).words := by
  match fields with
  | [] => exact closes_emptyObject
  | (name, w) :: fields =>
    simp only [fieldsStandard, Bool.and_eq_true] at hfields
    have hopen : Closes ['\x7b'] [.openBrace] := closes_singleton rfl
    have hcolon : Closes [':'] [.colon] := closes_singleton rfl
    have hvalue := (hopen.append (closes_quoted name)).append_writes
      (hcolon.append_writes (writes_compactText w hfields.1))
    exact hvalue.append_closes (closes_compactFields fields hfields.2) (apart_compactFields fields)

theorem closes_compactItems (items : List Json) (hitems : itemsStandard items = true) :
    Closes (compactItems items) (itemWords (documents items)) := by
  match items with
  | [] => exact closes_singleton rfl
  | item :: items =>
    simp only [itemsStandard, Bool.and_eq_true] at hitems
    have hcomma : Closes [','] [.comma] := closes_singleton rfl
    have hitem := hcomma.append_writes (writes_compactText item hitems.1)
    exact hitem.append_closes (closes_compactItems items hitems.2) (apart_compactItems items)

theorem closes_compactFields (fields : List (String × Json))
    (hfields : fieldsStandard fields = true) :
    Closes (compactFields fields) (fieldWords (fieldDocuments fields)) := by
  match fields with
  | [] => exact closes_singleton rfl
  | (name, w) :: fields =>
    simp only [fieldsStandard, Bool.and_eq_true] at hfields
    have hcomma : Closes [','] [.comma] := closes_singleton rfl
    have hcolon : Closes [':'] [.colon] := closes_singleton rfl
    have hvalue := (hcomma.append (closes_quoted name)).append_writes
      (hcolon.append_writes (writes_compactText w hfields.1))
    exact hvalue.append_closes (closes_compactFields fields hfields.2) (apart_compactFields fields)

end

/-! ## Texts of documents -/

theorem isText_compact {v : Json} (h : Writes (compactText v) v.document.words) :
    v.document.IsText v.compact := by
  rw [Document.IsText, compact, String.toList_ofList, h.tokens_eq]

theorem isText_pretty {v : Json} (h : Writes (prettyText 0 v) v.document.words) :
    v.document.IsText v.pretty := by
  rw [Document.IsText, pretty, String.toList_ofList, h.tokens_eq]

/-- A value over several lines is one document. -/
theorem Document.read?_prettyText {v : Json} (h : v.isStandard = true) (level : Nat) :
    Document.read? (prettyText level v) = some v.document :=
  Document.read?_of_tokens (writes_prettyText level v h).tokens_eq

/-! ## Values of documents -/

/-- A 64-bit integer has its value. -/
theorem Numeral.value?_ofInt {n : Int} (h : isWord n = true) :
    (ofInt n).value? = some (.integer n) := by
  simp only [isWord, Bool.and_eq_true, decide_eq_true_eq] at h
  have hsize : Nat.ofDigitChars 10 (Nat.toDigits 10 n.natAbs) 0 = n.natAbs :=
    Nat.ofDigitChars_ten_toDigits
  simp only [value?, ofInt, hsize]
  generalize hk : n.natAbs = k
  by_cases hn : n < 0
  · have hpos : 0 < k := by omega
    have hle : k ≤ signBound := by omega
    have hneg : -(k : Int) = n := by omega
    simp [hn, hpos, hle, hneg]
  · have hlt : k < wordBound := by omega
    have habs : (k : Int) = n := by omega
    simp [hn, hlt, habs]

mutual

/-- A value is that of its document, for a reader that follows as many containers. -/
theorem value?_document {room : Nat} (v : Json) (hv : v.isStandard = true)
    (hroom : v.height ≤ room) : v.document.value? room = some v := by
  match v with
  | .null => rfl
  | .bool b => rfl
  | .integer n => exact Numeral.value?_ofInt hv
  | .float x => cases hv
  | .string s => rfl
  | .array items =>
    obtain ⟨room, rfl⟩ : ∃ k, room = k + 1 := ⟨room - 1, by simp only [height] at hroom; omega⟩
    have hitems := values?_documents items hv (Nat.le_of_succ_le_succ hroom)
    rw [document, Document.value?, hitems, Option.map_some]
  | .object fields =>
    obtain ⟨room, rfl⟩ : ∃ k, room = k + 1 := ⟨room - 1, by simp only [height] at hroom; omega⟩
    simp only [isStandard, Bool.and_eq_true] at hv
    have hfields := fieldValues?_fieldDocuments fields hv.2 (Nat.le_of_succ_le_succ hroom)
    rw [document, Document.value?, hfields, Option.map_some, ofFields, sortFields_of_inOrder hv.1]

theorem values?_documents {room : Nat} (items : List Json) (hitems : itemsStandard items = true)
    (hroom : itemsHeight items ≤ room) : values? room (documents items) = some items := by
  match items with
  | [] => rfl
  | v :: vs =>
    simp only [itemsStandard, Bool.and_eq_true] at hitems
    rw [itemsHeight, Nat.max_le] at hroom
    simp only [documents, values?, value?_document v hitems.1 hroom.1,
      values?_documents vs hitems.2 hroom.2]

theorem fieldValues?_fieldDocuments {room : Nat} (fields : List (String × Json))
    (hfields : fieldsStandard fields = true) (hroom : fieldsHeight fields ≤ room) :
    fieldValues? room (fieldDocuments fields) = some fields := by
  match fields with
  | [] => rfl
  | (name, v) :: fs =>
    simp only [fieldsStandard, Bool.and_eq_true] at hfields
    rw [fieldsHeight, Nat.max_le] at hroom
    simp only [fieldDocuments, fieldValues?, value?_document v hfields.1 hroom.1,
      fieldValues?_fieldDocuments fs hfields.2 hroom.2]

end

/-- A value over several lines is read back. -/
theorem read?_pretty {v : Json} (h : v.isStandard = true) (hd : v.height ≤ deepest) :
    read? v.pretty = some v := by
  rw [read?, pretty, String.toList_ofList, Document.read?_prettyText h]
  exact value?_document v h hd

end Wheelwright.Json
