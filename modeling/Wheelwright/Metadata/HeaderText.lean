import Wheelwright.Text.Split
/-!
# Texts with headers

A descriptor is a block of headers, one on each line with a colon and a space after its name, and
after a blank line it may have a body. The main statement is `read?_render`: what was written is
read back.
-/

namespace Wheelwright

/-- Headers with their values, and a body that may be missing. -/
structure HeaderText where
  headers : List (String × String)
  body : Option String
  deriving DecidableEq, Repr

namespace HeaderText

/-! ## Writing -/

/-- One header on its line. -/
def line (h : String × String) : List Char := h.1.toList ++ ':' :: ' ' :: h.2.toList

/-- The lines of some headers, each with its line end. -/
def block (headers : List (String × String)) : List Char :=
  headers.flatMap fun h => line h ++ ['\n']

/-- The headers, and after a blank line the body. -/
def render (t : HeaderText) : String :=
  String.ofList (block t.headers ++
    match t.body with
    | some body => '\n' :: body.toList
    | none => [])

/-! ## Reading -/

/-- The header on a line; its name is what stands before the first colon. -/
def ofLine? (cs : List Char) : Option (String × String) :=
  match cs.dropWhile (· ≠ ':') with
  | ':' :: ' ' :: value => some (String.ofList (cs.takeWhile (· ≠ ':')), String.ofList value)
  | _ => none

/-- The text with one more header. -/
def addHeader (h : String × String) (t : HeaderText) : HeaderText :=
  { t with headers := h :: t.headers }

/-- The text that some pieces between line ends are, up to the first blank line and after it. -/
def ofPieces? : List (List Char) → Option HeaderText
  | [] => none
  | [[]] => some ⟨[], none⟩
  | [] :: rest => some ⟨[], some (String.ofList (Split.glue '\n' rest))⟩
  | piece :: rest =>
    match ofLine? piece, ofPieces? rest with
    | some h, some t => some (t.addHeader h)
    | _, _ => none

/-- The headers up to the first blank line, and the body after it. -/
def read? (text : String) : Option HeaderText := ofPieces? (Split.pieces '\n' text.toList)

/-! ## Reading what was written -/

/-- Headers that keep to their lines: no name holds a colon, and nothing holds a line feed. -/
def IsTidy (headers : List (String × String)) : Prop :=
  ∀ h ∈ headers, ':' ∉ h.1.toList ∧ '\n' ∉ h.1.toList ∧ '\n' ∉ h.2.toList

theorem ofLine?_line {h : String × String} (hn : ':' ∉ h.1.toList) : ofLine? (line h) = some h := by
  have hp : ∀ c ∈ h.1.toList, decide (c ≠ ':') = true := by
    intro c hc
    simpa using fun e : c = ':' => hn (e ▸ hc)
  simp only [ofLine?, line, List.takeWhile_append_of_pos hp, List.dropWhile_append_of_pos hp]
  simp

theorem ofPieces?_block {headers : List (String × String)} (h : IsTidy headers) (cs : List Char) :
    ofPieces? (Split.pieces '\n' (block headers ++ cs)) =
      (ofPieces? (Split.pieces '\n' cs)).map
        fun t => { t with headers := headers ++ t.headers } := by
  induction headers with
  | nil => simp [block]
  | cons a headers ih =>
    have ha := h a (by simp)
    have hl : '\n' ∉ line a := by simp [line, ha.2]
    have hne : line a ≠ [] := by simp [line]
    rw [block, List.flatMap_cons, List.append_assoc, List.append_assoc, List.singleton_append,
      Split.pieces_append_cons hl, ← block]
    have hr := ih fun b hb => h b (by simp [hb])
    cases hp : line a with
    | nil => exact absurd hp hne
    | cons c line' =>
      rw [ofPieces?, ← hp, ofLine?_line ha.1, hr]
      · cases ofPieces? (Split.pieces '\n' cs) <;> simp [addHeader]
      all_goals simp

/-- What was written is read back, if every header keeps to its line. -/
theorem read?_render (t : HeaderText) (h : IsTidy t.headers) : read? t.render = some t := by
  obtain ⟨headers, body⟩ := t
  cases body with
  | none => simpa [read?, render, Split.pieces, ofPieces?] using ofPieces?_block h []
  | some body =>
    have hb := ofPieces?_block h ('\n' :: body.toList)
    have hn : Split.pieces '\n' body.toList ≠ [] := Split.pieces_ne_nil _ _
    have hs : ofPieces? (Split.pieces '\n' ('\n' :: body.toList)) = some ⟨[], some body⟩ := by
      rw [Split.pieces, if_pos rfl]
      cases hp : Split.pieces '\n' body.toList with
      | nil => exact absurd hp hn
      | cons p ps =>
        rw [ofPieces?, ← hp, Split.glue_pieces, String.ofList_toList]
        simp
    rw [hs] at hb
    simpa [read?, render] using hb

end HeaderText
end Wheelwright
