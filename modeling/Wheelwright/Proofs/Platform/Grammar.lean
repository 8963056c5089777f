import Wheelwright.Platform
import Wheelwright.Platform.Grammar
/-!
# Canonical tags are those of the grammar

The check of a tag cuts it at dots, looks for a family in front of each piece and cuts what follows
at its first two underscores; `CanonicalTag` says what a tag is without cutting. The main statement
is `isCanonical_iff_canonicalTag`: the two agree on every text, the tags that the aliases stand for
are in the grammar and so need no test of their own, and a tag has small letters, digits,
underscores and dots only. At most one family begins a text (`family_unique`), so the order in which
they are tried does not matter.
-/

namespace Wheelwright.Platform

variable {cs start rest : List Char}

/-! ## The parts of a tag -/

theorem isNumber_iff : isNumber cs = true ↔ IsNumber cs := by
  simp [isNumber, IsNumber]

theorem isArch_iff : isArch cs = true ↔ IsArch cs := by
  simp [isArch, IsArch, isArchChar, or_assoc, and_assoc]

theorem after?_eq_some (h : after? start cs = some rest) : cs = start ++ rest := by
  unfold after? at h
  split at h
  · next hp =>
    obtain ⟨more, rfl⟩ := List.isPrefixOf_iff_prefix.1 hp
    rw [List.drop_left, Option.some.injEq] at h
    rw [h]
  · cases h

/-- What is asked of what follows `start` is asked of one way to take the text apart. -/
theorem any_after?_iff (start : List Char) (p : List Char → Bool) :
    (after? start cs).any p = true ↔ ∃ rest, cs = start ++ rest ∧ p rest = true := by
  rw [Option.any_eq_true]
  constructor
  · rintro ⟨rest, hs, hp⟩
    exact ⟨rest, after?_eq_some hs, hp⟩
  · rintro ⟨rest, rfl, hp⟩
    exact ⟨rest, by simp [after?], hp⟩

/-- A text with a separator in it, cut at the first one. -/
theorem eq_append_of_dropWhile {sep c : Char} (h : cs.dropWhile (· ≠ sep) = c :: rest) :
    cs = cs.takeWhile (· ≠ sep) ++ sep :: rest := by
  induction cs with
  | nil => cases h
  | cons d cs ih =>
    by_cases hd : d = sep
    · subst hd
      rw [List.dropWhile_cons_of_neg (by simp)] at h
      rw [List.takeWhile_cons_of_neg (by simp)]
      cases h
      rfl
    · rw [List.dropWhile_cons_of_pos (by simpa using hd)] at h
      rw [List.takeWhile_cons_of_pos (by simpa using hd), List.cons_append, ← ih h]

/-- A digit is no underscore. -/
theorem IsNumber.ne_underscore (h : IsNumber cs) : ∀ c ∈ cs, decide (c ≠ '_') = true := by
  intro c hc
  rw [decide_eq_true_iff]
  rintro rfl
  exact absurd (h.2 _ hc) (by decide)

/-- A number ends where the first underscore stands. -/
theorem IsNumber.takeWhile_append (h : IsNumber cs) (rest : List Char) :
    (cs ++ '_' :: rest).takeWhile (· ≠ '_') = cs := by
  rw [List.takeWhile_append_of_pos h.ne_underscore, List.takeWhile_cons_of_neg (by simp),
    List.append_nil]

theorem IsNumber.dropWhile_append (h : IsNumber cs) (rest : List Char) :
    (cs ++ '_' :: rest).dropWhile (· ≠ '_') = '_' :: rest := by
  rw [List.dropWhile_append_of_pos h.ne_underscore, List.dropWhile_cons_of_neg (by simp)]

/-- The version numbers of a tag and its architecture are found by cutting twice, though the
architecture may hold underscores itself. -/
theorem isVersionedArch_iff : isVersionedArch cs = true ↔ ∃ major minor arch,
    cs = major ++ '_' :: (minor ++ '_' :: arch) ∧ IsNumber major ∧ IsNumber minor ∧
      IsArch arch := by
  constructor
  · intro h
    unfold isVersionedArch at h
    split at h
    · cases h
    · next rest hrest =>
      split at h
      · cases h
      · next arch harch =>
        simp only [Bool.and_eq_true, isNumber_iff, isArch_iff] at h
        refine ⟨cs.takeWhile (· ≠ '_'), rest.takeWhile (· ≠ '_'), arch, ?_, h.1.1, h.1.2, h.2⟩
        rw [← eq_append_of_dropWhile harch]
        exact eq_append_of_dropWhile hrest
  · rintro ⟨major, minor, arch, rfl, hmajor, hminor, harch⟩
    simp only [isVersionedArch, hmajor.dropWhile_append, hmajor.takeWhile_append,
      hminor.dropWhile_append, hminor.takeWhile_append, Bool.and_eq_true, isNumber_iff, isArch_iff]
    exact ⟨⟨hmajor, hminor⟩, harch⟩

/-! ## A tag for one platform -/

/-- The check of a tag for one platform without a look at what the aliases stand for. -/
def fitsFamily (cs : List Char) : Bool :=
  windowsTags.any (·.toList == cs) || plainFamilies.any (fun f => (after? f.toList cs).any isArch) ||
    versionedFamilies.any (fun f => (after? f.toList cs).any isVersionedArch)

/-- What fits a family is a tag of the grammar, and nothing else is. -/
theorem fitsFamily_iff : fitsFamily cs = true ↔ SingleTag cs := by
  simp only [fitsFamily, Bool.or_eq_true, List.any_eq_true, beq_iff_eq, any_after?_iff, isArch_iff,
    isVersionedArch_iff]
  constructor
  · rintro ((⟨tag, ht, rfl⟩ | ⟨family, hf, arch, rfl, ha⟩) |
      ⟨family, hf, -, rfl, major, minor, arch, rfl, hmajor, hminor, ha⟩)
    · exact .windows ht
    · rcases List.mem_cons.1 hf with rfl | hf
      · exact .linux ha
      · exact .legacy hf ha
    · exact .versioned hf hmajor hminor ha
  · intro h
    cases h with
    | windows ht => exact .inl (.inl ⟨_, ht, rfl⟩)
    | linux ha => exact .inl (.inr ⟨_, List.mem_cons_self, _, rfl, ha⟩)
    | legacy hf ha => exact .inl (.inr ⟨_, List.mem_cons_of_mem _ hf, _, rfl, ha⟩)
    | versioned hf hmajor hminor ha =>
      exact .inr ⟨_, hf, _, rfl, _, _, _, rfl, hmajor, hminor, ha⟩

/-- At most one family begins a text, so it does not matter in which order they are tried. -/
theorem family_unique {f g : String} (hf : f ∈ plainFamilies ++ versionedFamilies)
    (hg : g ∈ plainFamilies ++ versionedFamilies) (hfs : f.toList <+: cs) (hgs : g.toList <+: cs) :
    f = g := by
  have apart : ∀ f ∈ plainFamilies ++ versionedFamilies, ∀ g ∈ plainFamilies ++ versionedFamilies,
      f.toList <+: g.toList → f = g := by decide
  rcases List.prefix_or_prefix_of_prefix hfs hgs with h | h
  · exact apart f hf g hg h
  · exact (apart g hg f hf h).symm

/-- What the aliases stand for is in the grammar. -/
theorem singleTag_of_mem_aliases {entry : String × String} (h : entry ∈ aliases) :
    SingleTag entry.2.toList := by
  have hfit : ∀ entry ∈ aliases, fitsFamily entry.2.toList = true := by decide
  exact fitsFamily_iff.1 (hfit entry h)

/-- The test whether an alias stands for the tag adds nothing. -/
theorem isSingleTag_eq_fitsFamily : isSingleTag cs = fitsFamily cs := by
  rw [isSingleTag, Bool.or_assoc, Bool.or_assoc, ← Bool.or_assoc (windowsTags.any _)]
  show (aliases.any (·.2.toList == cs) || fitsFamily cs) = fitsFamily cs
  rw [Bool.or_eq_right_iff_imp]
  intro h
  obtain ⟨entry, ha, hs⟩ := List.any_eq_true.1 h
  rw [← eq_of_beq hs]
  exact fitsFamily_iff.2 (singleTag_of_mem_aliases ha)

theorem isSingleTag_iff : isSingleTag cs = true ↔ SingleTag cs := by
  rw [isSingleTag_eq_fitsFamily, fitsFamily_iff]

/-- The fixed parts of tags have characters of tags. -/
theorem isArchChar_of_mem_fixed : ∀ s ∈ windowsTags ++ plainFamilies ++ versionedFamilies,
    ∀ c ∈ s.toList, isArchChar c = true := by
  have h : (windowsTags ++ plainFamilies ++ versionedFamilies).all (·.toList.all isArchChar) =
      true := by decide
  intro s hs
  exact List.all_eq_true.1 (List.all_eq_true.1 h s hs)

theorem IsNumber.isArchChar (h : IsNumber cs) : ∀ c ∈ cs, isArchChar c = true := by
  intro c hc
  simp [Platform.isArchChar, h.2 c hc]

theorem IsArch.isArchChar (h : IsArch cs) : ∀ c ∈ cs, isArchChar c = true := by
  intro c hc
  simpa [Platform.isArchChar, or_assoc] using h.2.2 c hc

/-- A tag for one platform has small letters, digits and underscores. -/
theorem SingleTag.isArchChar (h : SingleTag cs) : ∀ c ∈ cs, isArchChar c = true := by
  have hfix := isArchChar_of_mem_fixed
  simp only [List.forall_mem_append] at hfix
  obtain ⟨⟨hwindows, hplain⟩, hversioned⟩ := hfix
  cases h with
  | windows ht => exact hwindows _ ht
  | linux ha => exact List.forall_mem_append.2 ⟨hplain _ List.mem_cons_self, ha.isArchChar⟩
  | legacy hf ha =>
    exact List.forall_mem_append.2 ⟨hplain _ (List.mem_cons_of_mem _ hf), ha.isArchChar⟩
  | @versioned family major minor arch hf hmajor hminor ha =>
    have hrest : ∀ c ∈ minor ++ '_' :: arch, Platform.isArchChar c = true :=
      List.forall_mem_append.2 ⟨hminor.isArchChar, List.forall_mem_cons.2 ⟨rfl, ha.isArchChar⟩⟩
    have hnumbers : ∀ c ∈ major ++ '_' :: (minor ++ '_' :: arch), Platform.isArchChar c = true :=
      List.forall_mem_append.2 ⟨hmajor.isArchChar, List.forall_mem_cons.2 ⟨rfl, hrest⟩⟩
    exact List.forall_mem_append.2 ⟨hversioned _ hf, hnumbers⟩

/-- Between the dots of a canonical tag no more dots stand. -/
theorem SingleTag.not_mem_dot (h : SingleTag cs) : '.' ∉ cs := by
  intro hdot
  exact absurd (h.isArchChar '.' hdot) (by decide)

/-! ## Canonical tags -/

/-- Tags for one platform, glued with dots, are a canonical tag. -/
theorem canonicalTag_glue {tags : List (List Char)} (hne : tags ≠ [])
    (h : ∀ tag ∈ tags, SingleTag tag) : CanonicalTag (Split.glue '.' tags) := by
  induction tags with
  | nil => exact absurd rfl hne
  | cons tag tags ih =>
    have htag := h tag List.mem_cons_self
    cases tags with
    | nil => exact .one htag
    | cons next tags =>
      rw [Split.glue_cons tag (by simp)]
      exact .more htag (ih (by simp) fun t ht => h t (List.mem_cons_of_mem _ ht))

/-- The pieces of a canonical tag are tags for one platform. -/
theorem CanonicalTag.singleTag_of_mem_pieces (h : CanonicalTag cs) :
    ∀ piece ∈ Split.pieces '.' cs, SingleTag piece := by
  induction h with
  | one h =>
    rw [Split.pieces_of_not_mem h.not_mem_dot]
    intro piece hp
    rwa [List.mem_singleton.1 hp]
  | more h hr ih =>
    rw [Split.pieces_append_cons h.not_mem_dot]
    intro piece hp
    rcases List.mem_cons.1 hp with rfl | hp
    · exact h
    · exact ih piece hp

/-- A character that a canonical tag can have. -/
def isTagChar (c : Char) : Bool := isArchChar c || c == '.'

theorem CanonicalTag.isTagChar (h : CanonicalTag cs) : ∀ c ∈ cs, isTagChar c = true := by
  have hsingle : ∀ {tag : List Char}, SingleTag tag → ∀ c ∈ tag, Platform.isTagChar c = true := by
    intro tag htag c hc
    simp [Platform.isTagChar, htag.isArchChar c hc]
  induction h with
  | one h => exact hsingle h
  | more h hr ih =>
    exact List.forall_mem_append.2 ⟨hsingle h, List.forall_mem_cons.2 ⟨rfl, ih⟩⟩

theorem isCanonical_iff {tag : String} : isCanonical tag = true ↔ CanonicalTag tag.toList := by
  simp only [isCanonical, List.all_eq_true, isSingleTag_iff]
  constructor
  · intro h
    rw [← Split.glue_pieces '.' tag.toList]
    exact canonicalTag_glue (Split.pieces_ne_nil '.' tag.toList) h
  · intro h
    exact h.singleTag_of_mem_pieces

/-- A canonical tag has characters of tags only; so it can stand in a file's name. -/
theorem isTagChar_of_isCanonical {tag : String} (h : isCanonical tag = true) :
    ∀ c ∈ tag.toList, isTagChar c = true :=
  (isCanonical_iff.1 h).isTagChar

/-- A text is taken for a canonical tag if and only if it is one of the grammar; what the aliases
stand for is in the grammar, so the check would take the same texts without looking for it; and a
tag that is taken has small ASCII letters, ASCII digits, underscores and dots only. -/
theorem isCanonical_iff_canonicalTag (tag : String) :
    (isCanonical tag = true ↔ CanonicalTag tag.toList) ∧
      (∀ entry ∈ aliases, SingleTag entry.2.toList) ∧
      (isCanonical tag = (Split.pieces '.' tag.toList).all fitsFamily) ∧
      (isCanonical tag = true → ∀ c ∈ tag.toList,
        c.isLower = true ∨ c.isDigit = true ∨ c = '_' ∨ c = '.') := by
  refine ⟨isCanonical_iff, fun entry => singleTag_of_mem_aliases, ?_, ?_⟩
  · rw [isCanonical]
    congr 1
    funext piece
    exact isSingleTag_eq_fitsFamily
  · intro h c hc
    simpa [isTagChar, isArchChar, or_assoc] using isTagChar_of_isCanonical h c hc

/-- A set of two tags, one of which has underscores in its architecture. -/
theorem isCanonical_iff_canonicalTag_set :
    isCanonical "manylinux_2_17_x86_64.win32" = true ∧
      CanonicalTag "manylinux_2_17_x86_64.win32".toList ∧
      ∀ c ∈ "manylinux_2_17_x86_64.win32".toList,
        c.isLower = true ∨ c.isDigit = true ∨ c = '_' ∨ c = '.' := by
  have hcheck : isCanonical "manylinux_2_17_x86_64.win32" = true := by decide
  obtain ⟨hgrammar, -, -, hchars⟩ := isCanonical_iff_canonicalTag "manylinux_2_17_x86_64.win32"
  exact ⟨hcheck, hgrammar.1 hcheck, hchars hcheck⟩

end Wheelwright.Platform
