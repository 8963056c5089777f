import Wheelwright.Proofs.Text.LowerCase
/-!
# The normal form of a name

A name in normal form has no dash and no dot, and all its letters are small. Normalization brings
every name into that form (`isNormalized_normalize`) and leaves alone the names that have it and no
others (`normalize_eq_self_iff`), so that nothing changes twice.

What it changes can be counted: a character up to `@` stands in the normal form as often as in the
name (`count_normalize`), and an underscore stands for itself, a dash or a dot
(`count_underscore_normalize`). The main statement is `canonical_normalize`.
-/

namespace Wheelwright

/-- No dash, no dot, and every letter is its own small letter. -/
structure IsNormalized (name : String) : Prop where
  dash : '-' ∉ name.toList
  dot : '.' ∉ name.toList
  small : ∀ c ∈ name.toList, Text.lowerChar c = [c]

theorem lowerChar_underscore : Text.lowerChar '_' = ['_'] := by decide

/-- What normalization makes of a character is small. -/
theorem lowerChar_of_mem_normalizeChar {a c : Char} (h : a ∈ normalizeChar c) :
    Text.lowerChar a = [a] := by
  unfold normalizeChar at h
  split at h
  · rw [List.mem_singleton.1 h]
    exact lowerChar_underscore
  · exact Text.lowerChar_of_mem_lowerChar h

theorem isNormalized_normalize (name : String) : IsNormalized (normalize name) where
  dash := not_mem_normalize (.inl rfl) name
  dot := not_mem_normalize (.inr rfl) name
  small a ha := by
    rw [toList_normalize, List.mem_flatMap] at ha
    obtain ⟨c, -, hc⟩ := ha
    exact lowerChar_of_mem_normalizeChar hc

theorem IsNormalized.normalizeChar_eq {name : String} (h : IsNormalized name) {c : Char}
    (hc : c ∈ name.toList) : normalizeChar c = [c] := by
  have hdash : c ≠ '-' := ne_of_mem_of_not_mem hc h.dash
  have hdot : c ≠ '.' := ne_of_mem_of_not_mem hc h.dot
  rw [normalizeChar, if_neg (by simp [hdash, hdot]), h.small c hc]

/-- Normalization leaves alone the names in normal form and changes every other. -/
theorem normalize_eq_self_iff {name : String} : normalize name = name ↔ IsNormalized name := by
  constructor
  · intro h
    rw [← h]
    exact isNormalized_normalize name
  · intro h
    apply String.toList_inj.1
    have hc : name.toList.map normalizeChar = name.toList.map ([·]) :=
      List.map_congr_left fun c hm => h.normalizeChar_eq hm
    rw [toList_normalize, List.flatMap_def, hc, ← List.flatMap_def, List.flatMap_singleton']

/-! ## Counting -/

theorem count_singleton_of_ne {a c : Char} (h : a ≠ c) : [c].count a = 0 :=
  List.count_eq_zero.2 (mt List.mem_singleton.1 h)

/-- A character that is no small letter of another one is counted where it stands. -/
theorem count_lowerChar {a : Char} (ha : a.toNat < 0x61) (hs : Text.lowerChar a = [a]) (c : Char) :
    (Text.lowerChar c).count a = [c].count a := by
  by_cases hc : a = c
  · rw [← hc, hs]
  · rw [List.count_eq_zero.2 (Text.not_mem_lowerChar ha hc),
      List.count_eq_zero.2 (mt List.mem_singleton.1 hc)]

/-- Apart from dashes and dots, characters up to `@` stay, and none of them is made. -/
theorem count_normalizeChar {a : Char} (ha : a.toNat < 0x41) (hdash : a ≠ '-') (hdot : a ≠ '.')
    (c : Char) : (normalizeChar c).count a = [c].count a := by
  unfold normalizeChar
  split
  · next h =>
    have hc : a ≠ c := by
      rintro rfl
      simp [hdash, hdot] at h
    have hu : a ≠ '_' := by
      rintro rfl
      exact absurd ha (by decide)
    rw [count_singleton_of_ne hu, count_singleton_of_ne hc]
  · exact count_lowerChar (by omega) (Text.lowerChar_of_lt ha) c

theorem count_underscore_normalizeChar (c : Char) :
    (normalizeChar c).count '_' = [c].count '.' + [c].count '-' + [c].count '_' := by
  unfold normalizeChar
  split
  · next h =>
    simp only [Bool.or_eq_true, decide_eq_true_eq] at h
    rcases h with rfl | rfl <;> decide
  · next h =>
    have hc : '.' ≠ c ∧ '-' ≠ c := by
      constructor
      · rintro rfl
        exact h (by decide)
      · rintro rfl
        exact h (by decide)
    rw [count_lowerChar (by decide) lowerChar_underscore, count_singleton_of_ne hc.1,
      count_singleton_of_ne hc.2, Nat.zero_add]

theorem count_normalize {a : Char} (ha : a.toNat < 0x41) (hdash : a ≠ '-') (hdot : a ≠ '.')
    (name : String) : (normalize name).toList.count a = name.toList.count a := by
  rw [toList_normalize]
  induction name.toList with
  | nil => rfl
  | cons c cs ih =>
    rw [List.flatMap_cons, List.count_append, count_normalizeChar ha hdash hdot, ih,
      ← List.count_append, List.singleton_append]

/-- Every underscore stands for a dot, a dash or an underscore of the name. -/
theorem count_underscore_normalize (name : String) : (normalize name).toList.count '_' =
    name.toList.count '.' + name.toList.count '-' + name.toList.count '_' := by
  rw [toList_normalize]
  induction name.toList with
  | nil => rfl
  | cons c cs ih =>
    have hc (a : Char) : (c :: cs).count a = [c].count a + cs.count a := by
      rw [← List.count_append, List.singleton_append]
    rw [List.flatMap_cons, List.count_append, count_underscore_normalizeChar, ih, hc, hc, hc]
    omega

/-- Normalization changes nothing twice, and the names that it leaves alone are those without dash,
dot and capital. It makes nothing of the empty name alone, keeps slashes and line ends, and turns
each dot and each dash into an underscore. -/
theorem canonical_normalize (name : String) :
    normalize (normalize name) = normalize name ∧ IsNormalized (normalize name) ∧
      (normalize name = name ↔ IsNormalized name) ∧ (normalize name = "" ↔ name = "") ∧
      (normalize name).toList.count '/' = name.toList.count '/' ∧
      (normalize name).toList.count '\r' = name.toList.count '\r' ∧
      (normalize name).toList.count '\n' = name.toList.count '\n' ∧
      (normalize name).toList.count '_' =
        name.toList.count '.' + name.toList.count '-' + name.toList.count '_' := by
  have hn := isNormalized_normalize name
  refine ⟨normalize_eq_self_iff.2 hn, hn, normalize_eq_self_iff, ?empty, ?slash, ?carriage, ?feed,
    count_underscore_normalize name⟩
  case empty => rw [← String.toList_eq_nil_iff, toList_normalize_eq_nil_iff]
  case slash => exact count_normalize (by decide) (by decide) (by decide) name
  case carriage => exact count_normalize (by decide) (by decide) (by decide) name
  case feed => exact count_normalize (by decide) (by decide) (by decide) name

/-- The capital with two small characters, and a sigma at the end of a word. -/
example : normalize "İ.ΟΔΟΣ-/x_" = "i\u0307_οδοσ_/x_" := by decide

end Wheelwright
