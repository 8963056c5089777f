import Wheelwright.PackageName
import Wheelwright.Proofs.Text.Utf8
/-!
# What lower case leaves alone

No character before the capitals `A` to `Z` has a small letter, and none of them is one: lower case
neither changes nor makes a digit, a slash, a line end, or any other character up to `@`
(`mem_lowerChar_iff`). So a normalized name has such a character where the name has it, but for the
dash and the dot, which become underscores (`mem_normalize_iff`, `not_mem_normalize`).

No small letter is a capital of another one, so that lower case changes nothing twice
(`lowerChar_of_mem_lowerChar`).
-/

namespace Wheelwright

namespace Text

/-- The runs of the table begin at `A`, and their small letters at `a`. -/
theorem le_of_mem_caseRuns : ∀ r ∈ caseRuns, 0x41 ≤ r.first ∧ 0x61 ≤ r.small := by
  decide +kernel

/-- No run of the table has a small letter that is no character. -/
theorem isValidChar_of_mem_caseRuns : ∀ r ∈ caseRuns,
    r.small + (r.last - r.first) < 0xD800 ∨
      0xDFFF < r.small ∧ r.small + (r.last - r.first) < 0x110000 := by
  decide +kernel

/-- The small letter of a capital is the character with its number. -/
theorem toNat_lower {r : CaseRun} (hr : r ∈ caseRuns) {n : Nat} (h : r.holds n = true) :
    (Char.ofNat (r.lower n)).toNat = r.lower n := by
  have hv := isValidChar_of_mem_caseRuns r hr
  simp only [CaseRun.holds, Bool.and_eq_true, decide_eq_true_eq] at h
  apply Utf8.toNat_ofNat
  unfold Nat.isValidChar CaseRun.lower
  omega

/-- A character up to `@` has no small letter. -/
theorem lowerChar_of_lt {c : Char} (h : c.toNat < 0x41) : lowerChar c = [c] := by
  have hc : c ≠ 'İ' := by
    rintro rfl
    exact absurd h (by decide)
  have hf : caseRuns.find? (·.holds c.toNat) = none := by
    apply List.find?_eq_none.2
    intro r hr hh
    have hb := (le_of_mem_caseRuns r hr).1
    simp only [CaseRun.holds, Bool.and_eq_true, decide_eq_true_eq] at hh
    omega
  rw [lowerChar, if_neg hc, hf]

/-- A character before `a` is no part of the small letter of another one. -/
theorem not_mem_lowerChar {a c : Char} (ha : a.toNat < 0x61) (hne : a ≠ c) : a ∉ lowerChar c := by
  intro h
  unfold lowerChar at h
  split at h
  · rcases List.mem_cons.1 h with rfl | h
    · exact absurd ha (by decide)
    · rw [List.mem_singleton.1 h] at ha
      exact absurd ha (by decide)
  · split at h
    · next r hr =>
      have hm := List.mem_of_find?_eq_some hr
      have hh : r.holds c.toNat = true := by simpa using List.find?_some hr
      have hb := (le_of_mem_caseRuns r hm).2
      rw [List.mem_singleton.1 h, toNat_lower hm hh] at ha
      unfold CaseRun.lower at ha
      omega
    · exact hne (List.mem_singleton.1 h)

/-- Lower case neither changes nor makes a character up to `@`. -/
theorem mem_lowerChar_iff {a c : Char} (ha : a.toNat < 0x41) : a ∈ lowerChar c ↔ a = c := by
  constructor
  · intro h
    exact Decidable.by_contra fun hne => not_mem_lowerChar (by omega) hne h
  · rintro rfl
    rw [lowerChar_of_lt ha]
    exact List.mem_singleton_self a

/-- Lower case makes something of every character. -/
theorem lowerChar_ne_nil (c : Char) : lowerChar c ≠ [] := by
  unfold lowerChar
  split
  · exact List.cons_ne_nil _ _
  · split <;> exact List.cons_ne_nil _ _

/-! ## Small letters are small -/

/-- No small letter of `r` is a capital of `s`: the two lie apart, or they take turns. -/
def CaseRun.misses (r s : CaseRun) : Bool :=
  (r.small + (r.last - r.first)).blt s.first || s.last.blt r.small ||
    (r.stride == 2 || r.first == r.last) && s.stride == 2 && (r.small + s.first) % 2 == 1

/-- The capital with two small characters, as a run of its own. -/
def dottedRun : CaseRun := ⟨0x130, 0x130, 1, 0x69⟩

-- Decided run by run: there are eight times as many letters.
theorem all_misses_caseRuns :
    caseRuns.all (fun r => (dottedRun :: caseRuns).all r.misses) = true := by
  decide +kernel

theorem CaseRun.not_holds_lower {r s : CaseRun} (h : r.misses s = true) {n : Nat}
    (hn : r.holds n = true) : s.holds (r.lower n) = false := by
  apply Bool.eq_false_iff.2
  intro hs
  simp only [misses, holds, Bool.or_eq_true, Bool.and_eq_true, Nat.blt_eq, decide_eq_true_eq,
    beq_iff_eq] at h hn hs
  unfold lower at hs
  obtain ⟨⟨hfirst, hlast⟩, hstep⟩ := hn
  obtain ⟨⟨hfirst', hlast'⟩, hstep'⟩ := hs
  rcases h with (h | h) | ⟨⟨hr | hr, hs⟩, hodd⟩
  · omega
  · omega
  · rw [hr] at hstep
    rw [hs] at hstep'
    omega
  · rw [hs] at hstep'
    omega

/-- What lower case makes has no other small letter: lower case is final. -/
theorem lowerChar_of_mem_lowerChar {a c : Char} (h : a ∈ lowerChar c) : lowerChar a = [a] := by
  unfold lowerChar at h
  split at h
  · have hi : lowerChar 'i' = ['i'] ∧ lowerChar '\u0307' = ['\u0307'] := by decide
    rcases List.mem_cons.1 h with rfl | h
    · exact hi.1
    · rw [List.mem_singleton.1 h]
      exact hi.2
  · next hc =>
    split at h
    · next r hr =>
      have hm := List.mem_of_find?_eq_some hr
      have hh : r.holds c.toNat = true := by simpa using List.find?_some hr
      have ha : a.toNat = r.lower c.toNat := by rw [List.mem_singleton.1 h, toNat_lower hm hh]
      have hs : ∀ s ∈ dottedRun :: caseRuns, s.holds a.toNat = false := by
        intro s hs
        have hmiss := List.all_eq_true.1 (List.all_eq_true.1 all_misses_caseRuns r hm) s hs
        rw [ha]
        exact CaseRun.not_holds_lower hmiss hh
      have hdotted : a ≠ 'İ' := by
        rintro rfl
        exact absurd (hs dottedRun List.mem_cons_self) (by decide)
      have hf : caseRuns.find? (·.holds a.toNat) = none := by
        apply List.find?_eq_none.2
        intro s hm'
        exact Bool.eq_false_iff.1 (hs s (List.mem_cons_of_mem _ hm'))
      rw [lowerChar, if_neg hdotted, hf]
    · next hf => rw [List.mem_singleton.1 h, lowerChar, if_neg hc, hf]

end Text

/-- Neither does normalization, but for the dash and the dot. -/
theorem mem_normalizeChar_iff {a c : Char} (ha : a.toNat < 0x41) (hdash : a ≠ '-')
    (hdot : a ≠ '.') : a ∈ normalizeChar c ↔ a = c := by
  unfold normalizeChar
  split
  · next h =>
    simp only [Bool.or_eq_true, decide_eq_true_eq] at h
    constructor
    · intro h'
      rw [List.mem_singleton.1 h'] at ha
      exact absurd ha (by decide)
    · rintro rfl
      rcases h with rfl | rfl
      · exact absurd rfl hdash
      · exact absurd rfl hdot
  · exact Text.mem_lowerChar_iff ha

/-- A normalized name has a character up to `@` where the name has it, unless it is a dash or a
dot. -/
theorem mem_normalize_iff {a : Char} (ha : a.toNat < 0x41) (hdash : a ≠ '-') (hdot : a ≠ '.')
    (name : String) : a ∈ (normalize name).toList ↔ a ∈ name.toList := by
  rw [toList_normalize, List.mem_flatMap]
  constructor
  · rintro ⟨c, hm, h⟩
    rwa [(mem_normalizeChar_iff ha hdash hdot).1 h]
  · intro h
    exact ⟨a, h, (mem_normalizeChar_iff ha hdash hdot).2 rfl⟩

/-- A normalized name has no dash and no dot: those of the name become underscores, and lower case
makes none. -/
theorem not_mem_normalize {a : Char} (ha : a = '-' ∨ a = '.') (name : String) :
    a ∉ (normalize name).toList := by
  have hlt : a.toNat < 0x41 := by rcases ha with rfl | rfl <;> decide
  rw [toList_normalize, List.mem_flatMap]
  rintro ⟨c, -, h⟩
  unfold normalizeChar at h
  split at h
  · rw [List.mem_singleton.1 h] at ha
    exact absurd ha (by decide)
  · next hc =>
    refine Text.not_mem_lowerChar (by omega) ?_ h
    rintro rfl
    exact hc (by simpa using ha)

/-- Only the empty name has an empty normalized form. -/
theorem toList_normalize_eq_nil_iff {name : String} : (normalize name).toList = [] ↔ name = "" := by
  constructor
  · intro h
    apply String.toList_inj.1
    cases hn : name.toList with
    | nil => rfl
    | cons c cs =>
      rw [toList_normalize, hn, List.flatMap_cons, List.append_eq_nil_iff] at h
      have hc : normalizeChar c ≠ [] := by
        unfold normalizeChar
        split
        · exact List.cons_ne_nil _ _
        · exact Text.lowerChar_ne_nil c
      exact absurd h.1 hc
  · rintro rfl
    rfl

end Wheelwright
