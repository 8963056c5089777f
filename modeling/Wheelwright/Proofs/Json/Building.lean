import Wheelwright.Json.Document
/-!
# The words of a document

Every document can be spelled out in words (`Document.words`), and the machine that builds trees
makes the same document of them (`Document.read?_of_tokens`). So whatever a text looks like, its
document is known once its words are.
-/

namespace Wheelwright.Json

mutual

/-- The words of a document. -/
def Document.words : Document → List Token
  | .null => [.null]
  | .bool b => [.bool b]
  | .number n => [.number n]
  | .string s => [.string s]
  | .array [] => [.openBracket, .closeBracket]
  | .array (item :: items) => .openBracket :: item.words ++ itemWords items
  | .object [] => [.openBrace, .closeBrace]
  | .object ((name, d) :: fields) =>
    .openBrace :: .string name :: .colon :: d.words ++ fieldWords fields

/-- The words of the items after the first, and the end of the array. -/
def itemWords : List Document → List Token
  | [] => [.closeBracket]
  | item :: items => .comma :: item.words ++ itemWords items

/-- The words of the fields after the first, and the end of the object. -/
def fieldWords : List (Option String × Document) → List Token
  | [] => [.closeBrace]
  | (name, d) :: fields => .comma :: .string name :: .colon :: d.words ++ fieldWords fields

end

namespace Builder

variable {b b' : Builder} {around : List Frame} {t : Token} {ts us : List Token}

theorem takeAll_cons (h : b.take t = some b') (ts : List Token) :
    b.takeAll (t :: ts) = b'.takeAll ts := by
  rw [takeAll, h]

theorem takeAll_append (h : b.takeAll ts = some b') (us : List Token) :
    b.takeAll (ts ++ us) = b'.takeAll us := by
  induction ts generalizing b with
  | nil =>
    cases h
    rfl
  | cons t ts ih =>
    cases ht : b.take t with
    | none =>
      rw [takeAll, ht] at h
      cases h
    | some next =>
      rw [takeAll_cons ht] at h
      rw [List.cons_append, takeAll_cons ht, ih h]

/-- A value may come next, with these containers around it. Where the first item of an array may
come, so may the array's end, but no document begins with that. -/
def Awaits (b : Builder) (around : List Frame) : Prop :=
  ∀ t, t ≠ .closeBracket → b.take t = ofFirst? around t

theorem awaits_value (around : List Frame) : (Builder.value around).Awaits around :=
  fun _ _ => rfl

theorem awaits_firstItem (around : List Frame) :
    (Builder.firstItem around).Awaits (.array [] :: around) := by
  intro t ht
  cases t with
  | closeBracket => exact absurd rfl ht
  | _ => rfl

/-- A value that is one word. -/
theorem takeAll_singleton (hb : b.Awaits around) (ht : ofFirst? around t = some b') :
    b.takeAll [t] = some b' := by
  have htake : b.take t = some b' := by
    rw [hb t, ht]
    rintro rfl
    cases ht
  rw [takeAll_cons htake, takeAll]

/-- A field's name with its colon. -/
theorem takeAll_name {done : List (Option String × Document)} {name : Option String}
    (h : b.take (.string name) = some (.colon done name around)) (ts : List Token) :
    b.takeAll (.string name :: .colon :: ts) =
      (value (.object done name :: around)).takeAll ts := by
  rw [takeAll_cons h, takeAll_cons rfl]

mutual

/-- The words of a document build it, wherever a value may come next. -/
theorem takeAll_words (d : Document) {b : Builder} {around : List Frame} (hb : b.Awaits around) :
    b.takeAll d.words = some (.after d around) := by
  match d with
  | .null => exact takeAll_singleton hb rfl
  | .bool _ => exact takeAll_singleton hb rfl
  | .number _ => exact takeAll_singleton hb rfl
  | .string _ => exact takeAll_singleton hb rfl
  | .array [] =>
    have hopen : b.take .openBracket = some (.firstItem around) := hb _ nofun
    rw [Document.words, takeAll_cons hopen]
    rfl
  | .array (item :: items) =>
    have hopen : b.take .openBracket = some (.firstItem around) := hb _ nofun
    rw [Document.words, List.cons_append, takeAll_cons hopen,
      takeAll_append (takeAll_words item (awaits_firstItem around)), takeAll_itemWords items]
    rfl
  | .object [] =>
    have hopen : b.take .openBrace = some (.firstField around) := hb _ nofun
    rw [Document.words, takeAll_cons hopen]
    rfl
  | .object ((name, d) :: fields) =>
    have hopen : b.take .openBrace = some (.firstField around) := hb _ nofun
    have hname : (firstField around).take (.string name) = some (.colon [] name around) := rfl
    simp only [Document.words, List.cons_append]
    rw [takeAll_cons hopen, takeAll_name hname,
      takeAll_append (takeAll_words d (awaits_value _)), takeAll_fieldWords fields]
    rfl

/-- The items that came before, in reverse, and the last one of them stay in front. -/
theorem takeAll_itemWords (items : List Document) {d : Document} {done : List Document}
    {around : List Frame} :
    (after d (.array done :: around)).takeAll (itemWords items) =
      some (.after (.array ((d :: done).reverse ++ items)) around) := by
  match items with
  | [] => rw [List.append_nil]; rfl
  | item :: items =>
    have hcomma : (after d (.array done :: around)).take .comma =
      some (.value (.array (d :: done) :: around)) := rfl
    rw [itemWords, List.cons_append, takeAll_cons hcomma,
      takeAll_append (takeAll_words item (awaits_value _)), takeAll_itemWords items]
    simp

theorem takeAll_fieldWords (fields : List (Option String × Document)) {d : Document}
    {name : Option String} {done : List (Option String × Document)} {around : List Frame} :
    (after d (.object done name :: around)).takeAll (fieldWords fields) =
      some (.after (.object (((name, d) :: done).reverse ++ fields)) around) := by
  match fields with
  | [] => rw [List.append_nil]; rfl
  | (next, e) :: fields =>
    have hcomma : (after d (.object done name :: around)).take .comma =
      some (.field ((name, d) :: done) around) := rfl
    have hname : (field ((name, d) :: done) around).take (.string next) =
      some (.colon ((name, d) :: done) next around) := rfl
    simp only [fieldWords, List.cons_append]
    rw [takeAll_cons hcomma, takeAll_name hname,
      takeAll_append (takeAll_words e (awaits_value _)), takeAll_fieldWords fields]
    simp

end

end Builder

/-- A text with the words of a document is read as the document. -/
theorem Document.read?_of_tokens {cs : List Char} {d : Document} (h : tokens cs = some d.words) :
    Document.read? cs = some d := by
  simp only [Document.read?, h, Builder.takeAll_words d (Builder.awaits_value [])]

end Wheelwright.Json
