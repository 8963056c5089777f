import Mathlib.Data.List.TakeWhile
import Wheelwright.Json.Printer
import Wheelwright.Json.Token
import Wheelwright.Text.Number
/-!
# The words of what is written

The scanner finds in a text that was written what was written. Punctuation and strings end by
themselves (`Closes`); a number or one of the three words ends where something follows that cannot
be a part of it (`Writes`). The main statements are `writes_integerText` and `closes_quoted`.
-/

namespace Wheelwright.Json

variable {s s' : Scan} {t : Token} {ts us : List Token} {c : Char} {cs ds rest : List Char}

theorem tokensFrom_cons (h : advance s c = some (ts, s')) (cs : List Char) :
    tokensFrom s (c :: cs) = (tokensFrom s' cs).map (ts ++ ·) := by
  simp only [tokensFrom, h]

/-- A character that ends no token. -/
theorem tokensFrom_step (h : advance s c = some ([], s')) (cs : List Char) :
    tokensFrom s (c :: cs) = tokensFrom s' cs := by
  rw [tokensFrom_cons h]
  simp

/-- A character that begins a token. -/
theorem tokensFrom_begin (h : begin? c = some ([], s)) (cs : List Char) :
    tokensFrom .between (c :: cs) = tokensFrom s cs :=
  tokensFrom_step (s := .between) h cs

/-! ## Pieces of text -/

/-- What follows is no further part of a word or of a number. -/
def Apart (rest : List Char) : Prop :=
  ∀ c ∈ rest.head?, c.isLower = false ∧ isNumeralChar c = false

theorem apart_cons (hlower : c.isLower = false) (hnumeral : isNumeralChar c = false)
    (rest : List Char) : Apart (c :: rest) := by
  rintro d ⟨⟩
  exact ⟨hlower, hnumeral⟩

/-- The text is these tokens, whatever follows it. -/
def Closes (cs : List Char) (ts : List Token) : Prop :=
  ∀ rest, tokensFrom .between (cs ++ rest) = (tokensFrom .between rest).map (ts ++ ·)

/-- The text is these tokens, if what follows is set apart from it. -/
def Writes (cs : List Char) (ts : List Token) : Prop :=
  ∀ rest, Apart rest →
    tokensFrom .between (cs ++ rest) = (tokensFrom .between rest).map (ts ++ ·)

theorem Closes.writes (h : Closes cs ts) : Writes cs ts := fun rest _ => h rest

theorem Closes.append (h : Closes cs ts) (h' : Closes ds us) : Closes (cs ++ ds) (ts ++ us) := by
  intro rest
  rw [List.append_assoc, h, h', Option.map_map]
  simp [Function.comp_def]

/-- What is set apart from all that follows may stand at the end. -/
theorem Closes.append_writes (h : Closes cs ts) (h' : Writes ds us) :
    Writes (cs ++ ds) (ts ++ us) := by
  intro rest hrest
  rw [List.append_assoc, h, h' rest hrest, Option.map_map]
  simp [Function.comp_def]

/-- What is not a part of a word or of a number ends it. -/
theorem Writes.append_closes (h : Writes cs ts) (h' : Closes ds us)
    (hd : ∀ rest, Apart (ds ++ rest)) : Closes (cs ++ ds) (ts ++ us) := by
  intro rest
  rw [List.append_assoc, h _ (hd rest), h', Option.map_map]
  simp [Function.comp_def]

theorem Closes.nil : Closes [] [] := by
  intro rest
  simp

/-- A text that is these tokens has no others. -/
theorem Writes.tokens_eq (h : Writes cs ts) : tokens cs = some ts := by
  have hend := h [] nofun
  rw [List.append_nil] at hend
  rw [tokens, hend]
  simp [tokensFrom, Scan.finish]

/-! ## Punctuation -/

theorem closes_singleton (h : begin? c = some (ts, .between)) : Closes [c] ts :=
  fun rest => tokensFrom_cons (s := .between) h rest

/-- Blanks are no tokens. -/
theorem closes_of_forall_isSpace (h : ∀ c ∈ cs, isSpace c = true) : Closes cs [] := by
  induction cs with
  | nil => exact .nil
  | cons c cs ih =>
    have hc : begin? c = some ([], .between) := by
      rw [begin?, if_pos (h c List.mem_cons_self)]
    exact (closes_singleton hc).append (ih fun d hd => h d (List.mem_cons_of_mem c hd))

theorem closes_newLine (level : Nat) : Closes (newLine level) [] := by
  apply closes_of_forall_isSpace
  intro c hc
  rcases List.mem_cons.1 hc with rfl | hc
  · rfl
  · rw [List.eq_of_mem_replicate hc]
    rfl

/-! ## Words and numbers -/

/-- What the machine is in the middle of goes on with characters of a kind, and is a token when
another one comes or the text ends. -/
structure Gathers (state : List Char → Scan) (kind : Char → Bool)
    (token? : List Char → Option Token) : Prop where
  more : ∀ seen c, kind c = true → advance (state seen) c = some ([], state (c :: seen))
  other : ∀ seen c, kind c = false → advance (state seen) c = andBegin? (token? seen.reverse) c
  finish : ∀ seen, (state seen).finish = (token? seen.reverse).map ([·])

theorem gathers_word : Gathers .word Char.isLower wordToken? where
  more := by
    intro seen c hc
    rw [advance, if_pos hc]
  other := by
    intro seen c hc
    rw [advance, hc, if_neg Bool.false_ne_true]
  finish := fun _ => rfl

theorem gathers_number :
    Gathers .number isNumeralChar (fun cs => (Numeral.read? cs).map .number) where
  more := by
    intro seen c hc
    rw [advance, if_pos hc]
  other := by
    intro seen c hc
    rw [advance, hc, if_neg Bool.false_ne_true]
  finish := fun _ => rfl

section gathers

variable {state : List Char → Scan} {kind : Char → Bool} {token? : List Char → Option Token}

theorem Gathers.tokensFrom_append (h : Gathers state kind token?)
    (hcs : ∀ c ∈ cs, kind c = true) (seen rest : List Char) :
    tokensFrom (state seen) (cs ++ rest) = tokensFrom (state (cs.reverse ++ seen)) rest := by
  induction cs generalizing seen with
  | nil => rfl
  | cons c cs ih =>
    rw [List.cons_append, tokensFrom_step (h.more seen c (hcs c List.mem_cons_self)),
      ih fun d hd => hcs d (List.mem_cons_of_mem c hd)]
    simp

/-- What ends with the next character is a token there. -/
theorem Gathers.tokensFrom_end (h : Gathers state kind token?) {seen : List Char}
    (ht : token? seen.reverse = some t) (hrest : ∀ c ∈ rest.head?, kind c = false) :
    tokensFrom (state seen) rest = (tokensFrom .between rest).map ([t] ++ ·) := by
  cases rest with
  | nil =>
    have hfinish : (state seen).finish = some [t] := by
      rw [h.finish, ht]
      rfl
    exact hfinish
  | cons c cs =>
    have hbetween : advance .between c = begin? c := rfl
    simp only [tokensFrom, h.other seen c (hrest c rfl), ht, hbetween, andBegin?]
    cases begin? c with
    | none => rfl
    | some r =>
      simp only [Option.map_map, Function.comp_def]
      rfl

/-- A text that begins so, goes on so to its end, and is a token. -/
theorem Gathers.writes (h : Gathers state kind token?)
    (hkind : ∀ c, c.isLower = false → isNumeralChar c = false → kind c = false)
    (hbegin : begin? c = some ([], state [c])) (hcs : ∀ c ∈ cs, kind c = true)
    (ht : token? (c :: cs) = some t) : Writes (c :: cs) [t] := by
  intro rest hrest
  have hseen : (cs.reverse ++ [c]).reverse = c :: cs := by simp
  rw [List.cons_append, tokensFrom_begin hbegin, h.tokensFrom_append hcs]
  refine h.tokensFrom_end (hseen ▸ ht) ?_
  intro d hd
  exact hkind d (hrest d hd).1 (hrest d hd).2

end gathers

/-- One of the three words. -/
theorem writes_word (hbegin : begin? c = some ([], .word [c])) (hcs : ∀ c ∈ cs, c.isLower = true)
    (hword : wordToken? (c :: cs) = some t) : Writes (c :: cs) [t] :=
  gathers_word.writes (fun _ hlower _ => hlower) hbegin hcs hword

/-- A number. -/
theorem writes_numeral {n : Numeral} (hbegin : begin? c = some ([], .number [c]))
    (hcs : ∀ c ∈ cs, isNumeralChar c = true) (hn : Numeral.read? (c :: cs) = some n) :
    Writes (c :: cs) [.number n] := by
  refine gathers_number.writes (fun _ _ hnumeral => hnumeral) hbegin hcs ?_
  rw [hn]
  rfl

/-! ## Integers -/

theorem isNumeralChar_of_isDigit (h : c.isDigit = true) : isNumeralChar c = true := by
  simp [isNumeralChar, h]

theorem isLower_of_isDigit (h : c.isDigit = true) : c.isLower = false := by
  have hdigit : 48 ≤ c.val ∧ c.val ≤ 57 := by
    change (decide (48 ≤ c.val) && decide (c.val ≤ 57)) = true at h
    simpa only [Bool.and_eq_true, decide_eq_true_eq] using h
  change (decide (97 ≤ c.val) && decide (c.val ≤ 122)) = false
  rw [decide_eq_false, Bool.false_and]
  exact fun hc => absurd (UInt32.le_trans hc hdigit.2) (by decide)

theorem begin?_of_isDigit (h : c.isDigit = true) : begin? c = some ([], .number [c]) := by
  -- a digit is nothing that is looked for first
  have hne : ∀ d ∈ [' ', '\n', '\t', '\r', '\x7b', '\x7d', '[', ']', ',', ':', '"'], c ≠ d := by
    rintro d hd rfl
    simp only [List.mem_cons, List.not_mem_nil, or_false] at hd
    rcases hd with rfl | rfl | rfl | rfl | rfl | rfl | rfl | rfl | rfl | rfl | rfl <;> cases h
  simp only [List.forall_mem_cons] at hne
  simp [begin?, isSpace, hne, isLower_of_isDigit h, h]

/-- An integer as it is written. -/
def Numeral.ofInt (n : Int) : Numeral := ⟨n < 0, Nat.toDigits 10 n.natAbs, [], none⟩

theorem Numeral.unsigned?_toDigits (negative : Bool) (n : Nat) :
    unsigned? negative (Nat.toDigits 10 n) = some ⟨negative, Nat.toDigits 10 n, [], none⟩ := by
  have hdigits : ∀ c ∈ Nat.toDigits 10 n, c.isDigit = true :=
    fun c hc => Nat.isDigit_of_mem_toDigits (by decide) (by decide) hc
  have htake : (Nat.toDigits 10 n).takeWhile Char.isDigit = Nat.toDigits 10 n :=
    List.takeWhile_eq_self_iff.2 hdigits
  have hdrop : (Nat.toDigits 10 n).dropWhile Char.isDigit = [] :=
    List.dropWhile_eq_nil_iff.2 hdigits
  have hzero : ¬((Nat.toDigits 10 n).head? = some '0' ∧ Nat.toDigits 10 n ≠ ['0']) := by
    rintro ⟨hhead, hne⟩
    rw [Text.eq_zero_of_head?_toDigits hhead] at hne
    exact hne rfl
  simp only [unsigned?, htake, hdrop, Nat.toDigits_ne_nil, Bool.or_eq_true, Bool.and_eq_true,
    decide_eq_true_eq, false_or, if_neg hzero]

/-- An integer is the number that it is written as. -/
theorem writes_integerText (n : Int) : Writes (integerText n) [.number (.ofInt n)] := by
  have hdigits : ∀ c ∈ Nat.toDigits 10 n.natAbs, c.isDigit = true :=
    fun c hc => Nat.isDigit_of_mem_toDigits (by decide) (by decide) hc
  have hread := fun negative => Numeral.unsigned?_toDigits negative n.natAbs
  unfold integerText Numeral.ofInt
  rw [Int.repr_eq_if]
  by_cases hn : n < 0
  · have habs : (-n).toNat = n.natAbs := by omega
    rw [if_neg (Int.not_le.2 hn), habs, String.toList_append, Nat.toList_repr, decide_eq_true hn]
    refine writes_numeral (by decide) (fun c hc => isNumeralChar_of_isDigit (hdigits c hc)) ?_
    exact hread true
  · have habs : n.toNat = n.natAbs := by omega
    rw [if_pos (Int.not_lt.1 hn), habs, Nat.toList_repr, decide_eq_false hn]
    cases hd : Nat.toDigits 10 n.natAbs with
    | nil => exact absurd hd Nat.toDigits_ne_nil
    | cons c cs =>
      rw [hd] at hdigits hread
      have hc := hdigits c List.mem_cons_self
      have hcs : ∀ d ∈ cs, isNumeralChar d = true :=
        fun d hd => isNumeralChar_of_isDigit (hdigits d (List.mem_cons_of_mem c hd))
      refine writes_numeral (begin?_of_isDigit hc) hcs ?_
      rw [Numeral.read?]
      · exact hread false
      · intro ds hds
        cases hds
        cases hc

/-! ## Strings -/

/-- The characters that have a letter for their escape. -/
def lettered : List Char := ['"', '\\', '\x08', '\x0c', '\n', '\r', '\t']

theorem exists_letter (h : c ∈ lettered) :
    ∃ letter, escaped? letter = some c ∧ escapeChar c = ['\\', letter] := by
  simp only [lettered, List.mem_cons, List.not_mem_nil, or_false] at h
  rcases h with rfl | rfl | rfl | rfl | rfl | rfl | rfl
  · exact ⟨'"', rfl, rfl⟩
  · exact ⟨'\\', rfl, rfl⟩
  · exact ⟨'b', rfl, rfl⟩
  · exact ⟨'f', rfl, rfl⟩
  · exact ⟨'n', rfl, rfl⟩
  · exact ⟨'r', rfl, rfl⟩
  · exact ⟨'t', rfl, rfl⟩

theorem escapeChar_of_not_mem (h : c ∉ lettered) :
    escapeChar c = if c.toNat < 32 then ['\\', 'u'] ++ Hex.fixed 4 c.toNat else [c] := by
  simp only [lettered, List.mem_cons, List.not_mem_nil, or_false, not_or] at h
  simp only [escapeChar, h, if_false]

/-- The part of a string that a character is written as. -/
def Part.ofChar (c : Char) : Part :=
  if c.toNat < 32 ∧ c ∉ lettered then .unit c.toNat else .char c

theorem textOfParts_unit {n : Nat} (h : n < 0xD800) (rest : List Part) :
    textOfParts (.unit n :: rest) = (textOfParts rest).map (Char.ofNat n :: ·) := by
  have hhigh : isHighSurrogate n = false := by
    simp only [isHighSurrogate, Bool.and_eq_false_iff, decide_eq_false_iff_not]
    omega
  have hlow : isLowSurrogate n = false := by
    simp only [isLowSurrogate, Bool.and_eq_false_iff, decide_eq_false_iff_not]
    omega
  rw [textOfParts.eq_def]
  simp [hhigh, hlow]

/-- The text of the parts is the text that they were written for. -/
theorem textOfParts_map_ofChar (cs : List Char) : textOfParts (cs.map .ofChar) = some cs := by
  induction cs with
  | nil => rfl
  | cons c cs ih =>
    rw [List.map_cons, Part.ofChar]
    split
    · next h => rw [textOfParts_unit (by omega), ih, Char.ofNat_toNat, Option.map_some]
    · rw [textOfParts, ih, Option.map_some]

theorem hexValue?_digit {n : Nat} (h : n < 16) : hexValue? (Hex.digit n) = some n := by
  have hlower : ∀ n : Fin 16, (Hex.digit n).toLower = Hex.digit n := by decide
  rw [hexValue?, hlower ⟨n, h⟩, Hex.value?_digit h]

/-- A digit of an escape, when more of them are to come. -/
theorem advance_unit (seen : List Part) (missing value : Nat) {n : Nat} (h : n < 16) :
    advance (.unit seen (missing + 2) value) (Hex.digit n) =
      some ([], .unit seen (missing + 1) (value * 16 + n)) := by
  have hmore : ¬missing + 2 ≤ 1 := by omega
  simp only [advance, hexValue?_digit h, Option.map_some, if_neg hmore]
  rfl

/-- The last digit of an escape. -/
theorem advance_unit_last (seen : List Part) (value : Nat) {n : Nat} (h : n < 16) :
    advance (.unit seen 1 value) (Hex.digit n) =
      some ([], .string (.unit (value * 16 + n) :: seen)) := by
  simp only [advance, hexValue?_digit h, Option.map_some, Nat.le_refl, if_true]

/-- A character that has a letter for its escape. -/
theorem tokensFrom_escaped (seen : List Part) {letter : Char} (h : escaped? letter = some c)
    (rest : List Char) :
    tokensFrom (.string seen) ('\\' :: letter :: rest) =
      tokensFrom (.string (.char c :: seen)) rest := by
  have hbegin : advance (.string seen) '\\' = some ([], .escape seen) := rfl
  have hletter : advance (.escape seen) letter = some ([], .string (.char c :: seen)) := by
    rw [advance, if_neg, h, Option.map_some]
    rintro rfl
    cases h
  rw [tokensFrom_step hbegin, tokensFrom_step hletter]

/-- A character that is escaped by its number. -/
theorem tokensFrom_unit (seen : List Part) {n : Nat} (hn : n < 65536) (rest : List Char) :
    tokensFrom (.string seen) ('\\' :: 'u' :: Hex.fixed 4 n ++ rest) =
      tokensFrom (.string (.unit n :: seen)) rest := by
  have hbegin : advance (.string seen) '\\' = some ([], .escape seen) := rfl
  have hletter : advance (.escape seen) 'u' = some ([], .unit seen 4 0) := rfl
  have hdigits : Hex.fixed 4 n = [Hex.digit (n / 16 / 16 / 16 % 16), Hex.digit (n / 16 / 16 % 16),
      Hex.digit (n / 16 % 16), Hex.digit (n % 16)] := rfl
  have hlt : ∀ k, k % 16 < 16 := fun k => Nat.mod_lt k (by decide)
  have hsum : (((0 * 16 + n / 16 / 16 / 16 % 16) * 16 + n / 16 / 16 % 16) * 16 + n / 16 % 16) * 16 +
      n % 16 = n := by omega
  simp only [hdigits, List.cons_append, List.nil_append]
  rw [tokensFrom_step hbegin, tokensFrom_step hletter,
    tokensFrom_step (advance_unit seen 2 _ (hlt _)),
    tokensFrom_step (advance_unit seen 1 _ (hlt _)),
    tokensFrom_step (advance_unit seen 0 _ (hlt _)),
    tokensFrom_step (advance_unit_last seen _ (hlt _)), hsum]

/-- Within a string, a character that was written is read. -/
theorem tokensFrom_escapeChar (seen : List Part) (c : Char) (rest : List Char) :
    tokensFrom (.string seen) (escapeChar c ++ rest) =
      tokensFrom (.string (.ofChar c :: seen)) rest := by
  by_cases hc : c ∈ lettered
  · obtain ⟨letter, hletter, hescape⟩ := exists_letter hc
    have hpart : Part.ofChar c = .char c := if_neg fun h => h.2 hc
    rw [hescape, hpart]
    exact tokensFrom_escaped seen hletter rest
  rw [escapeChar_of_not_mem hc]
  by_cases h : c.toNat < 32
  · have hpart : Part.ofChar c = .unit c.toNat := if_pos ⟨h, hc⟩
    rw [if_pos h, hpart]
    exact tokensFrom_unit seen (by omega) rest
  · have hpart : Part.ofChar c = .char c := if_neg fun hl => h hl.1
    have hplain : advance (.string seen) c = some ([], .string (.char c :: seen)) := by
      simp only [lettered, List.mem_cons, not_or] at hc
      rw [advance, if_neg hc.1, if_neg hc.2.1, if_neg h]
    rw [if_neg h, hpart, List.singleton_append, tokensFrom_step hplain]

theorem tokensFrom_flatMap_escapeChar (seen : List Part) (cs rest : List Char) :
    tokensFrom (.string seen) (cs.flatMap escapeChar ++ rest) =
      tokensFrom (.string ((cs.map .ofChar).reverse ++ seen)) rest := by
  induction cs generalizing seen with
  | nil => rfl
  | cons c cs ih =>
    rw [List.flatMap_cons, List.append_assoc, tokensFrom_escapeChar, ih]
    simp

/-- A string is read as it was before it was written. -/
theorem closes_quoted (s : String) : Closes (quoted s) [.string (some s)] := by
  intro rest
  have hbegin : begin? '"' = some ([], .string []) := rfl
  have hend : advance (.string (s.toList.map .ofChar).reverse) '"' =
      some ([.string (some s)], .between) := by
    rw [advance, if_pos rfl, List.reverse_reverse, textOfParts_map_ofChar, Option.map_some,
      String.ofList_toList]
  rw [quoted, List.cons_append, List.cons_append, List.append_assoc, List.singleton_append,
    tokensFrom_begin hbegin, tokensFrom_flatMap_escapeChar, List.append_nil, tokensFrom_cons hend]

end Wheelwright.Json
