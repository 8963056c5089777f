import Wheelwright.Proofs.Platform.Grammar
/-!
# Resolving platforms

A platform is named by an alias or by a canonical tag. What a name resolves to is said by
`resolve_eq_ok_iff`, one case for each rule; since there is a dash in every alias and in no tag, the
two never compete. The main statement is `resolution`: names resolve to canonical tags, these
resolve to themselves, what does not resolve is named in the error, and so is a machine without a
tag, while the platform of every other machine resolves.
-/

namespace Wheelwright.Platform

variable {input : String} {tag : PlatformTag}

/-! ## Aliases -/

theorem lookup_aliases_eq_none_iff :
    aliases.lookup input = none ↔ input ∉ aliases.map (·.1) := by
  rw [List.lookup_eq_none_iff]
  simp only [List.mem_map, not_exists, not_and, bne_iff_ne, ne_eq]
  exact ⟨fun h f hf he => h f hf he.symm, fun h f hf he => h f hf he.symm⟩

/-- An alias stands for one tag. -/
theorem lookup_aliases_of_mem {text : String} (h : (input, text) ∈ aliases) :
    aliases.lookup input = some text := by
  have hkeys : ∀ entry ∈ aliases, aliases.lookup entry.1 = some entry.2 := by decide
  exact hkeys (input, text) h

theorem mem_aliases_of_lookup {text : String} (h : aliases.lookup input = some text) :
    (input, text) ∈ aliases := by
  obtain ⟨front, back, ha, -⟩ := List.lookup_eq_some_iff.1 h
  rw [ha]
  exact List.mem_append_right _ List.mem_cons_self

/-- There is a dash in an alias, and in a tag there is none. -/
theorem isCanonical_eq_false_of_mem_aliases {entry : String × String} (h : entry ∈ aliases) :
    isCanonical entry.1 = false := by
  have hdash : ∀ entry ∈ aliases, '-' ∈ entry.1.toList := by decide
  rw [Bool.eq_false_iff]
  intro hc
  have hchar := isTagChar_of_isCanonical hc '-' (hdash entry h)
  exact absurd hchar (by decide)

theorem isCanonical_of_mem_aliases {entry : String × String} (h : entry ∈ aliases) :
    isCanonical entry.2 = true :=
  isCanonical_iff.2 (.one (singleTag_of_mem_aliases h))

/-! ## What a name resolves to -/

/-- An alias resolves to the tag that it stands for, a canonical tag to itself, and nothing else
resolves. -/
theorem resolve_eq_ok_iff :
    resolve input = .ok tag ↔
      (input, tag.text) ∈ aliases ∨ isCanonical input = true ∧ tag = ⟨input⟩ := by
  unfold resolve
  constructor
  · intro h
    split at h
    · next text hl =>
      cases h
      exact .inl (mem_aliases_of_lookup hl)
    · split at h
      · next hc =>
        cases h
        exact .inr ⟨hc, rfl⟩
      · cases h
  · rintro (h | ⟨hc, rfl⟩)
    · rw [lookup_aliases_of_mem h]
    · have hl : aliases.lookup input = none := by
        rw [lookup_aliases_eq_none_iff]
        intro hm
        obtain ⟨entry, he, rfl⟩ := List.mem_map.1 hm
        rw [isCanonical_eq_false_of_mem_aliases he] at hc
        cases hc
      rw [hl]
      exact if_pos hc

theorem resolve_eq_error_iff : (∃ error, resolve input = .error error) ↔
    input ∉ aliases.map (·.1) ∧ isCanonical input = false := by
  rw [← lookup_aliases_eq_none_iff]
  unfold resolve
  cases aliases.lookup input with
  | some text => simp
  | none => cases isCanonical input <;> simp

theorem resolve_eq_ok_of_isCanonical (h : isCanonical input = true) :
    resolve input = .ok ⟨input⟩ :=
  resolve_eq_ok_iff.2 (.inr ⟨h, rfl⟩)

theorem exists_resolve_iff :
    (∃ tag, resolve input = .ok tag) ↔ input ∈ aliases.map (·.1) ∨ isCanonical input = true := by
  simp only [resolve_eq_ok_iff]
  constructor
  · rintro ⟨tag, h | ⟨hc, -⟩⟩
    · exact .inl (List.mem_map_of_mem (f := (·.1)) h)
    · exact .inr hc
  · rintro (hm | hc)
    · obtain ⟨entry, he, rfl⟩ := List.mem_map.1 hm
      exact ⟨⟨entry.2⟩, .inl he⟩
    · exact ⟨⟨input⟩, .inr ⟨hc, rfl⟩⟩

/-- Whatever a name resolves to is a canonical tag. -/
theorem isCanonical_of_resolve (h : resolve input = .ok tag) : isCanonical tag.text = true := by
  rcases resolve_eq_ok_iff.1 h with ha | ⟨hc, rfl⟩
  · exact isCanonical_of_mem_aliases ha
  · exact hc

/-- A tag that a text resolves to has characters of tags only. -/
theorem isTagChar_of_resolve (h : resolve input = .ok tag) :
    ∀ c ∈ tag.text.toList, isTagChar c = true :=
  isTagChar_of_isCanonical (isCanonical_of_resolve h)

theorem not_mem_of_resolve {c : Char} (h : resolve input = .ok tag) (hc : isTagChar c = false) :
    c ∉ tag.text.toList := by
  intro hm
  rw [isTagChar_of_resolve h c hm] at hc
  cases hc

/-- The error names what was asked for. -/
theorem eq_unknown_of_resolve {error : PlatformError} (h : resolve input = .error error) :
    error = .unknown input := by
  unfold resolve at h
  split at h
  · cases h
  · split at h
    · cases h
    · cases h
      rfl

/-! ## Machines -/

/-- The platform of every machine that has one stands for a tag. -/
theorem exists_resolve_of_mem_hosts :
    ∀ host ∈ hosts, ∃ tag, resolve host.2 = .ok tag := by
  have h : hosts.all (fun host => (resolve host.2).isOk) = true := by decide
  intro host hm
  have hr := List.all_eq_true.1 h host hm
  cases he : resolve host.2 with
  | ok tag => exact ⟨tag, rfl⟩
  | error error =>
    rw [he] at hr
    cases hr

/-- A machine has no tag, and the error says which machine that is, or its platform resolves. -/
theorem ofHost_cases (os arch : String) :
    ofHost os arch = .error (.unsupportedHost os arch) ∨
      ∃ platform tag, ofHost os arch = .ok platform ∧ resolve platform = .ok tag := by
  unfold ofHost
  cases hl : hosts.lookup (os, arch) with
  | none => exact .inl rfl
  | some platform =>
    obtain ⟨front, back, hhosts, -⟩ := List.lookup_eq_some_iff.1 hl
    have hm : ((os, arch), platform) ∈ hosts := by simp [hhosts]
    obtain ⟨tag, ht⟩ := exists_resolve_of_mem_hosts _ hm
    exact .inr ⟨platform, tag, rfl, ht⟩

/-- A name resolves if and only if it is one of the four aliases or a canonical tag. What it
resolves to is canonical, resolves to itself, and is the name if that is canonical, as no alias is;
a name that does not resolve is the one in the error. A machine has no tag, and then the error has
both its names, or its platform resolves. -/
theorem resolution (input : String) :
    ((∃ tag, resolve input = .ok tag) ↔
        input ∈ ["linux-x86_64", "macos-arm64", "macos-x86_64", "windows-x64"] ∨
          isCanonical input = true) ∧
      (∀ tag, resolve input = .ok tag → isCanonical tag.text = true ∧
        resolve tag.text = .ok tag ∧ (isCanonical input = true → tag.text = input)) ∧
      (∀ entry ∈ aliases, isCanonical entry.1 = false) ∧
      (∀ error, resolve input = .error error → error = .unknown input) ∧
      ∀ os arch, ofHost os arch = .error (.unsupportedHost os arch) ∨
        ∃ platform tag, ofHost os arch = .ok platform ∧ resolve platform = .ok tag := by
  refine ⟨exists_resolve_iff, ?_, fun entry => isCanonical_eq_false_of_mem_aliases,
    fun error => eq_unknown_of_resolve, ofHost_cases⟩
  intro tag h
  have htag := isCanonical_of_resolve h
  refine ⟨htag, resolve_eq_ok_of_isCanonical htag, ?_⟩
  intro hc
  rw [resolve_eq_ok_of_isCanonical hc] at h
  cases h
  rfl

/-- An alias, what it stands for, and a name that is neither an alias nor a tag. -/
theorem resolution_of_alias :
    resolve "macos-arm64" = .ok ⟨"macosx_11_0_arm64"⟩ ∧
      resolve "macosx_11_0_arm64" = .ok ⟨"macosx_11_0_arm64"⟩ ∧
      resolve "linux-arm64" = .error (.unknown "linux-arm64") := by
  have halias : resolve "macos-arm64" = .ok ⟨"macosx_11_0_arm64"⟩ :=
    resolve_eq_ok_iff.2 (.inl (by decide))
  obtain ⟨error, herror⟩ : ∃ error, resolve "linux-arm64" = .error error :=
    resolve_eq_error_iff.2 ⟨by decide, by decide⟩
  obtain ⟨-, hok, -, -, -⟩ := resolution "macos-arm64"
  obtain ⟨-, -, -, hnamed, -⟩ := resolution "linux-arm64"
  rw [hnamed error herror] at herror
  exact ⟨halias, (hok _ halias).2.1, herror⟩

end Wheelwright.Platform
