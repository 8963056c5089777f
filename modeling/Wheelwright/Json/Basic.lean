import Wheelwright.Binary64
/-!
# JSON values

Values as programs exchange them. The fields of an object have different names and stand in the
order of their names. Whole numbers that fit into 64 bits are kept apart from other numbers, which
are in 64-bit floating point. A field of an object is found under its name, whatever order the
object was made in (`field?_ofFields`).
-/

namespace Wheelwright

/-- A JSON value. -/
inductive Json where
  | null
  | bool (b : Bool)
  | integer (n : Int)
  | float (x : Binary64)
  | string (s : String)
  | array (items : List Json)
  | object (fields : List (String × Json))
  deriving Repr

namespace Json

/-- The least number that 64 bits cannot hold. -/
def wordBound : Nat := 18446744073709551616

/-- The size of the least number that 64 bits can hold with a sign. -/
def signBound : Nat := 9223372036854775808

/-- The fields with one more, in its place; a field of the same name is replaced. -/
def setField (name : String) (value : Json) : List (String × Json) → List (String × Json)
  | [] => [(name, value)]
  | (n, v) :: rest =>
    if name < n then (name, value) :: (n, v) :: rest
    else if name = n then (name, value) :: rest
    else (n, v) :: setField name value rest

/-- Some fields in their order; of two with the same name the later one stays. -/
def sortFields (fields : List (String × Json)) : List (String × Json) :=
  fields.foldl (fun sorted f => setField f.1 f.2 sorted) []

/-- An object with some fields. -/
def ofFields (fields : List (String × Json)) : Json := .object (sortFields fields)

/-- A text, or null. -/
def ofText? : Option String → Json
  | some s => .string s
  | none => .null

/-- An array of texts. -/
def ofTexts (texts : List String) : Json := .array (texts.map .string)

/-- A field of an object. -/
def field? (name : String) : Json → Option Json
  | .object fields => fields.lookup name
  | _ => none

/-- The text, if the value is one. -/
def text? : Json → Option String
  | .string s => some s
  | _ => none

/-! ## Fields by name -/

theorem lookup_cons (f : String × Json) (rest : List (String × Json)) (k : String) :
    (f :: rest).lookup k = if k = f.1 then some f.2 else rest.lookup k := by
  rw [List.lookup_cons]
  by_cases hk : k = f.1
  · rw [beq_iff_eq.2 hk, if_pos hk]
  · rw [beq_eq_false_iff_ne.2 hk, if_neg hk]

/-- A field that was set is found with its value, and every other field as before. -/
theorem lookup_setField (name : String) (value : Json) (fields : List (String × Json))
    (k : String) :
    (setField name value fields).lookup k = if k = name then some value else fields.lookup k := by
  induction fields with
  | nil => exact lookup_cons (name, value) [] k
  | cons f rest ih =>
    obtain ⟨n, v⟩ := f
    unfold setField
    by_cases hlt : name < n
    · rw [if_pos hlt, lookup_cons]
    · rw [if_neg hlt]
      by_cases hn : name = n
      · rw [if_pos hn, lookup_cons, lookup_cons, ← hn]
        by_cases hk : k = name <;> simp [hk]
      · rw [if_neg hn, lookup_cons, lookup_cons, ih]
        by_cases hk : k = n
        · subst hk
          simp [Ne.symm hn]
        · simp [hk]

/-- Of the fields with a name the last one is found. -/
theorem field?_ofFields (fields : List (String × Json)) (k : String) :
    (ofFields fields).field? k = fields.reverse.lookup k := by
  have h : ∀ sorted : List (String × Json),
      (fields.foldl (fun sorted f => setField f.1 f.2 sorted) sorted).lookup k =
        (fields.reverse.lookup k).or (sorted.lookup k) := by
    induction fields with
    | nil => simp
    | cons f rest ih =>
      intro sorted
      rw [List.foldl_cons, ih, lookup_setField, List.reverse_cons, List.lookup_append, lookup_cons]
      by_cases hk : k = f.1 <;> simp [hk]
  rw [ofFields, field?, sortFields, h []]
  simp

end Json

end Wheelwright
