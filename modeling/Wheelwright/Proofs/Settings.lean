import Mathlib.Data.List.DropRight
import Wheelwright.Metadata.SettingLine
/-!
# Settings read back

A reader finds one line more than there are line ends within the lines that were written
(`read?_render`). A key and a value come back as they are exactly if the key has no equals sign, no
blanks at its ends and does not look like the beginning of something else, and the value has no
blanks at its ends (`ofChars_setting_iff`).
-/

namespace Wheelwright.SettingLine.Dialect

variable {d : Dialect} {cs : List Char}

/-- A text of which all is seen in ASCII has neither line ends nor blanks. -/
theorem visible_of_all (h : cs.all (fun c => 0x21 ≤ c.toNat && c.toNat ≤ 0x7E) = true) :
    ∀ c ∈ cs, d.endsLine c = false ∧ d.isBlank c = false := by
  intro c hc
  have hv := List.all_eq_true.1 h c hc
  simp only [Bool.and_eq_true, decide_eq_true_eq] at hv
  exact d.visible c hv.1 hv.2

/-! ## Line ends -/

theorem lineChar_of_endsLine {c : Char} (h : d.endsLine c = false) : d.lineChar c = c :=
  if_neg (by simp [h])

theorem map_lineChar (h : ∀ c ∈ cs, d.endsLine c = false) : cs.map d.lineChar = cs := by
  rw [List.map_congr_left fun c hc => lineChar_of_endsLine (h c hc), List.map_id']

/-- What ends a line is a line feed to the reader, and nothing else is. -/
theorem lineChar_eq_lineFeed_iff {c : Char} : d.lineChar c = '\n' ↔ d.endsLine c = true := by
  unfold lineChar
  split
  · next h => exact iff_of_true rfl h
  · next h =>
    refine iff_of_false ?_ h
    rintro rfl
    exact h d.endsLine_lineFeed

variable (d) in
/-- What a reader finds in a text in place of one line. -/
def found (cs : List Char) : List SettingLine :=
  (Split.pieces '\n' (cs.map d.lineChar)).map d.ofChars

/-- It is one thing more than there are line ends. -/
theorem length_found (cs : List Char) : (d.found cs).length = cs.countP d.endsLine + 1 := by
  have hc : (cs.map d.lineChar).count '\n' = cs.countP d.endsLine := by
    rw [List.count, List.countP_map]
    apply List.countP_congr
    intro c _
    simp [lineChar_eq_lineFeed_iff]
  rw [found, List.length_map, Split.length_pieces, hc]

theorem found_of_endsLine (h : ∀ c ∈ cs, d.endsLine c = false) : d.found cs = [d.ofChars cs] := by
  have hn : '\n' ∉ cs := by
    intro hm
    have he := h _ hm
    rw [d.endsLine_lineFeed] at he
    cases he
  rw [found, map_lineChar h, Split.pieces_of_not_mem hn]
  rfl

/-- The end of each line that was written is a cut, and there may be more within the line. -/
theorem pieces_render (lines : List SettingLine) :
    Split.pieces '\n' ((render lines).toList.map d.lineChar) =
      (lines.flatMap fun line => Split.pieces '\n' (line.chars.map d.lineChar)) ++ [[]] := by
  rw [render, String.toList_ofList]
  induction lines with
  | nil => rfl
  | cons line lines ih =>
    have hn : d.lineChar '\n' = '\n' := lineChar_eq_lineFeed_iff.2 d.endsLine_lineFeed
    rw [List.flatMap_cons, List.append_assoc, List.singleton_append, List.map_append,
      List.map_cons, hn, Split.pieces_append_sep, ih, List.flatMap_cons, List.append_assoc]

/-- A text of lines is read as what is found in place of each of them. -/
theorem read?_render (lines : List SettingLine) :
    d.read? (render lines) = some (lines.flatMap fun line => d.found line.chars) := by
  rw [read?, pieces_render]
  simp [found, List.map_flatMap]

/-! ## Blanks at the ends -/

variable (d) in
/-- There is no blank at either end. -/
structure IsTight (cs : List Char) : Prop where
  head : ∀ c, cs.head? = some c → d.isBlank c = false
  last : ∀ c, cs.getLast? = some c → d.isBlank c = false

theorem dropWhile_append_cons {p : Char → Bool} {x : Char} (hx : p x = false) (xs ys : List Char) :
    (xs ++ x :: ys).dropWhile p = xs.dropWhile p ++ x :: ys := by
  induction xs with
  | nil => simp [hx]
  | cons y xs ih => by_cases hy : p y = true <;> simp [hy, ih]

/-- What is not blank keeps its place between what is left of the text on its two sides. -/
theorem trim_append_cons {x : Char} (hx : d.isBlank x = false) (xs ys : List Char) :
    d.trim (xs ++ x :: ys) = xs.dropWhile d.isBlank ++ x :: ys.rdropWhile d.isBlank := by
  rw [trim, dropWhile_append_cons hx, List.reverse_append, List.reverse_cons, List.append_assoc,
    List.singleton_append, dropWhile_append_cons hx, List.reverse_append, List.reverse_cons,
    List.reverse_reverse, List.append_assoc, List.singleton_append]
  rfl

/-- What is left between the blanks at the ends has none there. -/
theorem isTight_trim (cs : List Char) : d.IsTight (d.trim cs) where
  head c hc := by
    have hh := List.head?_dropWhile_not d.isBlank cs
    obtain ⟨rest, hr⟩ := List.rdropWhile_prefix d.isBlank (cs.dropWhile d.isBlank)
    have hd : (cs.dropWhile d.isBlank).head? = some c := by
      rw [← hr, List.head?_append]
      exact congrArg (·.or rest.head?) hc
    rwa [hd] at hh
  last c hc := by
    have hne : d.trim cs ≠ [] := by
      intro he
      rw [he] at hc
      cases hc
    rw [List.getLast?_eq_some_getLast hne, Option.some.injEq] at hc
    rw [← hc]
    exact Bool.eq_false_iff.2 (List.rdropWhile_last_not d.isBlank _ hne)

theorem mem_of_mem_trim {c : Char} (h : c ∈ d.trim cs) : c ∈ cs :=
  (List.dropWhile_suffix d.isBlank).subset ((List.rdropWhile_prefix d.isBlank _).subset h)

theorem trim_eq_self_iff : d.trim cs = cs ↔ d.IsTight cs := by
  constructor
  · intro h
    rw [← h]
    exact isTight_trim cs
  · intro h
    have hd : cs.dropWhile d.isBlank = cs := by
      cases cs with
      | nil => rfl
      | cons c cs => exact List.dropWhile_cons_of_neg (by simp [h.head c rfl])
    have hr : cs.rdropWhile d.isBlank = cs := by
      apply List.rdropWhile_eq_self_iff.2
      intro hne
      simp [h.last _ (List.getLast?_eq_some_getLast hne)]
    rw [trim, hd]
    exact hr

theorem trim_cons_space (cs : List Char) : d.trim (' ' :: cs) = d.trim cs := by
  rw [trim, List.dropWhile_cons_of_pos d.isBlank_space, trim]

theorem trim_append_space (cs : List Char) : d.trim (cs ++ [' ']) = d.trim cs := by
  rw [trim, List.dropWhile_append]
  split
  · next h =>
    have hs : [' '].dropWhile d.isBlank = [] := List.dropWhile_cons_of_pos d.isBlank_space
    rw [hs, trim, List.isEmpty_iff.1 h]
  · exact List.rdropWhile_concat_pos d.isBlank _ _ d.isBlank_space

/-! ## Keys and values -/

theorem visible_equals : d.endsLine '=' = false ∧ d.isBlank '=' = false :=
  d.visible '=' (by decide) (by decide)

/-- The line of a setting without its blanks. -/
theorem trim_setting (key value : String) :
    d.trim (setting key value).chars =
      (key.toList ++ [' ']).dropWhile d.isBlank ++
        '=' :: (' ' :: value.toList).rdropWhile d.isBlank := by
  have hc : (setting key value).chars = (key.toList ++ [' ']) ++ '=' :: (' ' :: value.toList) := by
    simp [chars]
  rw [hc, trim_append_cons visible_equals.2]

/-- The line of a setting begins as its key does. -/
theorem head?_trim_setting {key value : String} (h : d.IsTight key.toList) :
    (d.trim (setting key value).chars).head? = some (key.toList.head?.getD '=') := by
  rw [trim_setting]
  cases hk : key.toList with
  | nil => simp [d.isBlank_space]
  | cons c cs => simp [h.head c (by rw [hk]; rfl)]

/-- It ends as its value does. -/
theorem getLast?_trim_setting {key value : String} (h : d.IsTight value.toList) :
    (d.trim (setting key value).chars).getLast? = some (value.toList.getLast?.getD '=') := by
  rw [trim_setting]
  rcases List.eq_nil_or_concat value.toList with hv | ⟨cs, c, hv⟩
  · have hs : [' '].rdropWhile d.isBlank = [] := by simp [List.rdropWhile, d.isBlank_space]
    simp [hv, hs]
  · have hc : ¬ d.isBlank c = true := by simp [h.last c (by simp [hv])]
    have hr : (' ' :: cs ++ [c]).rdropWhile d.isBlank = ' ' :: cs ++ [c] :=
      List.rdropWhile_concat_neg d.isBlank _ _ hc
    rw [hv, List.concat_eq_append, ← List.cons_append, hr, ← List.cons_append, ← List.append_assoc,
      List.getLast?_concat, List.getLast?_concat]
    rfl

variable (d) in
/-- A key and a value that a reader of their line can take for nothing else. -/
structure Keeps (key value : String) : Prop where
  key_tight : d.IsTight key.toList
  value_tight : d.IsTight value.toList
  equals : '=' ∉ key.toList
  comment : ∀ c, key.toList.head? = some c → d.opensComment c = false
  header : ¬ (key.toList.head? = some '[' ∧ value.toList.getLast? = some ']')

/-- Without blanks at their ends, the line looks like something else only by its first and its last
character. -/
theorem marks_iff {key value : String} (hk : d.IsTight key.toList) (hv : d.IsTight value.toList) :
    ((d.trim (setting key value).chars).head?.any d.opensComment = false ↔
        ∀ c, key.toList.head? = some c → d.opensComment c = false) ∧
      ((d.trim (setting key value).chars).head? = some '[' ∧
          (d.trim (setting key value).chars).getLast? = some ']' ↔
        key.toList.head? = some '[' ∧ value.toList.getLast? = some ']') := by
  rw [head?_trim_setting hk, getLast?_trim_setting hv]
  constructor
  · cases key.toList.head? with
    | none => simp [d.opensComment_equals]
    | some c => simp
  · cases key.toList.head? <;> cases value.toList.getLast? <;> simp

/-- A key and a value come back as they are if they can be taken for nothing else, and only then. -/
theorem ofChars_setting_iff {key value : String} :
    d.ofChars (setting key value).chars = setting key value ↔ d.Keeps key value := by
  have hc : (setting key value).chars = (key.toList ++ [' ']) ++ '=' :: (' ' :: value.toList) := by
    simp [chars]
  constructor
  · intro h
    unfold ofChars at h
    simp only at h
    split at h
    · cases h
    · next hcomment =>
      split at h
      · cases h
      · next hheader =>
        split at h
        · cases h
        · next rest hrest =>
          injection h with hkey hvalue
          have hk : key.toList = d.trim ((setting key value).chars.takeWhile (· ≠ '=')) :=
            (congrArg String.toList hkey).symm.trans String.toList_ofList
          have hv : value.toList = d.trim rest :=
            (congrArg String.toList hvalue).symm.trans String.toList_ofList
          have hkt : d.IsTight key.toList := hk ▸ isTight_trim _
          have hvt : d.IsTight value.toList := hv ▸ isTight_trim rest
          have hm := marks_iff hkt hvt
          refine ⟨hkt, hvt, ?_, hm.1.1 (Bool.eq_false_iff.2 hcomment), mt hm.2.2 hheader⟩
          intro he
          rw [hk] at he
          simpa using List.mem_takeWhile_imp (mem_of_mem_trim he)
  · intro h
    have hs : ∀ c ∈ key.toList ++ [' '], decide (c ≠ '=') = true := by
      intro c hm
      apply decide_eq_true
      rintro rfl
      rcases List.mem_append.1 hm with hm | hm
      · exact h.equals hm
      · exact absurd (List.mem_singleton.1 hm) (by decide)
    have hd : (setting key value).chars.dropWhile (· ≠ '=') = '=' :: ' ' :: value.toList := by
      rw [hc, List.dropWhile_append_of_pos hs, List.dropWhile_cons_of_neg (by simp)]
    have ht : (setting key value).chars.takeWhile (· ≠ '=') = key.toList ++ [' '] := by
      rw [hc, List.takeWhile_append_of_pos hs, List.takeWhile_cons_of_neg (by simp),
        List.append_nil]
    have hm := marks_iff h.key_tight h.value_tight
    simp only [ofChars]
    rw [if_neg (by simp [hm.1.2 h.comment]), if_neg (fun he => h.header (hm.2.1 he)), hd, ht]
    simp only [trim_append_space, trim_cons_space, trim_eq_self_iff.2 h.key_tight,
      trim_eq_self_iff.2 h.value_tight, String.ofList_toList]

/-- The writer puts no line end between a key and its value. -/
theorem countP_setting (key value : String) : (setting key value).chars.countP d.endsLine =
    (key.toList ++ value.toList).countP d.endsLine := by
  simp [chars, List.countP_append, d.endsLine_space, visible_equals.1]

/-- A written setting is found alone and as it is if, besides, no line ends in it, and only then. -/
theorem found_setting_iff {key value : String} :
    d.found (setting key value).chars = [setting key value] ↔
      (∀ c ∈ key.toList ++ value.toList, d.endsLine c = false) ∧ d.Keeps key value := by
  have hends : (∀ c ∈ key.toList ++ value.toList, d.endsLine c = false) ↔
      ∀ c ∈ (setting key value).chars, d.endsLine c = false := by
    simp only [← Bool.not_eq_true, ← List.countP_eq_zero, countP_setting]
  rw [hends, ← ofChars_setting_iff]
  constructor
  · intro h
    have hlen := congrArg List.length h
    rw [length_found, List.length_singleton] at hlen
    have hz : ∀ c ∈ (setting key value).chars, d.endsLine c = false := by
      simp only [← Bool.not_eq_true, ← List.countP_eq_zero]
      omega
    rw [found_of_endsLine hz] at h
    exact ⟨hz, List.singleton_inj.1 h⟩
  · rintro ⟨hz, h⟩
    rw [found_of_endsLine hz, h]

end Wheelwright.SettingLine.Dialect
