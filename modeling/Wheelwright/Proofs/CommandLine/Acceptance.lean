import Wheelwright.Proofs.CommandLine.Draft
import Wheelwright.Proofs.CommandLine.Grammar
/-!
# Which command lines are accepted

A line that can be scanned, with values that the options can have, is accepted exactly if it says
what one build needs: a name, a version, a program, and either a platform tag or that the machine's
is to be used, each of them once, and no more than one long description. It is refused as
contradictory if both platforms or both descriptions are there, whatever else is missing, and as
incomplete otherwise. The main statement is `parse_accepts_unambiguous`.
-/

namespace Wheelwright.CommandLine

/-- The items say what one build needs, and nothing twice. -/
structure Unambiguous (items : List Item) : Prop where
  name : occurrences items (.key .name) = 1
  version : occurrences items (.key .version) = 1
  binary : occurrences items (.key .binary) = 1
  /-- The platform is named or left to the machine. -/
  platform : occurrences items (.key .platform) + occurrences items (.switch .autoPlatform) = 1
  description :
    ¬(0 < occurrences items (.key .longDescription) ∧ 0 < occurrences items (.key .readme))

/-- The items give two platforms or two long descriptions. -/
def Contradictory (items : List Item) : Prop :=
  (0 < occurrences items (.key .platform) ∧ 0 < occurrences items (.switch .autoPlatform)) ∨
    (0 < occurrences items (.key .longDescription) ∧ 0 < occurrences items (.key .readme))

theorem Unambiguous.not_contradictory {items : List Item} (h : Unambiguous items) :
    ¬Contradictory items := by
  rintro (⟨hp, ha⟩ | hd)
  · have := h.platform
    omega
  · exact h.description hd

namespace Draft

variable {d : Draft} {items : List Item} {k : Key} {i : Invocation} {error : UsageError}

/-! ## What a draft needs -/

theorem finish_eq_ok_iff : d.finish = .ok i ↔
    d.conflicts = false ∧ ∃ name version binary platform, d.text? .name = some name ∧
      d.text? .version = some version ∧ d.path? .binary = some binary ∧
      d.platform? = some platform ∧ i = d.invocation name version binary platform := by
  unfold finish
  constructor
  · intro h
    split at h
    · cases h
    · next hc =>
      split at h
      · next name version binary platform hn hv hb hp =>
        cases h
        exact ⟨by simpa using hc, name, version, binary, platform, hn, hv, hb, hp, rfl⟩
      · cases h
  · rintro ⟨hc, name, version, binary, platform, hn, hv, hb, hp, rfl⟩
    simp [hc, hn, hv, hb, hp]

/-- A draft that is not finished contradicts itself, or something is missing. -/
theorem of_finish_error (h : d.finish = .error error) :
    error = .argumentConflict ∧ d.conflicts = true ∨
      error = .missingRequiredArgument ∧ d.conflicts = false := by
  unfold finish at h
  split at h
  · next hc =>
    cases h
    exact .inl ⟨rfl, hc⟩
  · next hc =>
    split at h
    · cases h
    · cases h
      exact .inr ⟨rfl, by simpa using hc⟩

theorem finish_of_conflicts (h : d.conflicts = true) : d.finish = .error .argumentConflict :=
  if_pos h

/-! ## The same of the items -/

section said

variable (h : d.Says items) (ho : Orderly items)
include h ho

theorem Says.conflicts_iff : d.conflicts = true ↔ Contradictory items := by
  unfold conflicts Contradictory
  simp only [Bool.or_eq_true, Bool.and_eq_true, h.has_iff ho, h.switches_iff]

/-- A text was given for an option exactly if there is an item for it. -/
theorem Says.isSome_text?_iff (hk : k.takesPath = false) :
    (d.text? k).isSome = true ↔ 0 < occurrences items (.key k) := by
  rw [← h.has_iff ho, has, text?]
  cases hl : d.values.lookup k with
  | none => rfl
  | some v =>
    obtain ⟨given, -, hv⟩ := (h.value k v).1 hl
    have hkind := Value.kind_of_ofBytes hv
    rw [hk, if_neg Bool.false_ne_true] at hkind
    obtain ⟨s, rfl⟩ := hkind
    rfl

/-- A path was given for an option exactly if there is an item for it. -/
theorem Says.isSome_path?_iff (hk : k.takesPath = true) :
    (d.path? k).isSome = true ↔ 0 < occurrences items (.key k) := by
  rw [← h.has_iff ho, has, path?]
  cases hl : d.values.lookup k with
  | none => rfl
  | some v =>
    obtain ⟨given, -, hv⟩ := (h.value k v).1 hl
    have hkind := Value.kind_of_ofBytes hv
    rw [if_pos hk] at hkind
    rw [hkind]
    rfl

/-- The machine's platform is asked for exactly if no tag is given but the switch is. -/
theorem Says.platform?_eq_detect_iff : d.platform? = some .detect ↔
    ¬0 < occurrences items (.key .platform) ∧ 0 < occurrences items (.switch .autoPlatform) := by
  rw [← h.isSome_text?_iff ho (k := .platform) rfl, ← h.switches_iff, platform?]
  cases d.text? .platform with
  | none => cases d.switches.contains .autoPlatform <;> simp
  | some tag => simp

theorem Says.isSome_platform?_iff : d.platform?.isSome = true ↔
    0 < occurrences items (.key .platform) ∨ 0 < occurrences items (.switch .autoPlatform) := by
  rw [← h.isSome_text?_iff ho (k := .platform) rfl, ← h.switches_iff, platform?]
  cases d.text? .platform with
  | none => cases d.switches.contains .autoPlatform <;> simp
  | some tag => simp

/-- A draft is finished exactly if the items describe one build. -/
theorem Says.exists_finish_iff : (∃ i, d.finish = .ok i) ↔ Unambiguous items := by
  have hname := h.isSome_text?_iff ho (k := .name) rfl
  have hversion := h.isSome_text?_iff ho (k := .version) rfl
  have hbinary := h.isSome_path?_iff ho (k := .binary) rfl
  have hplatform := h.isSome_platform?_iff ho
  have hconflicts := h.conflicts_iff ho
  simp only [finish_eq_ok_iff]
  constructor
  · rintro ⟨i, hc, name, version, binary, platform, hn, hv, hb, hp, -⟩
    rw [hn] at hname
    rw [hv] at hversion
    rw [hb] at hbinary
    rw [hp] at hplatform
    rw [hc, Bool.false_eq_true, false_iff, Contradictory, not_or] at hconflicts
    have hone : ∀ m, m ≠ .verbose → 0 < occurrences items m → occurrences items m = 1 := by
      intro m hm hpos
      have := ho.once m hm
      omega
    refine ⟨hone _ nofun (hname.1 rfl), hone _ nofun (hversion.1 rfl), hone _ nofun (hbinary.1 rfl),
      ?_, hconflicts.2⟩
    have h₁ := ho.once (.key .platform) nofun
    have h₂ := ho.once (.switch .autoPlatform) nofun
    have h₃ := hplatform.1 rfl
    have h₄ := hconflicts.1
    omega
  · intro hu
    have hc : d.conflicts = false := by
      rw [← Bool.not_eq_true, hconflicts]
      exact hu.not_contradictory
    obtain ⟨name, hn⟩ := Option.isSome_iff_exists.1 (hname.2 (by rw [hu.name]; decide))
    obtain ⟨version, hv⟩ := Option.isSome_iff_exists.1 (hversion.2 (by rw [hu.version]; decide))
    obtain ⟨binary, hb⟩ := Option.isSome_iff_exists.1 (hbinary.2 (by rw [hu.binary]; decide))
    have hpos := hu.platform
    obtain ⟨platform, hp⟩ := Option.isSome_iff_exists.1 (hplatform.2 (by omega))
    exact ⟨_, hc, name, version, binary, platform, hn, hv, hb, hp, rfl⟩

end said
end Draft

/-! ## The whole line -/

variable {args : List Bytes} {items : List Item} {i : Invocation}

/-- A line that is accepted was scanned to its end, put together and finished. -/
theorem exists_of_parse_ok (h : parse args = .ok i) :
    ∃ (items : List Item) (d : Draft),
      Written items args ∧ Orderly items ∧ d.Says items ∧ d.finish = .ok i := by
  unfold parse at h
  dsimp only at h
  split at h
  · cases h
  · next d hd =>
    split at h
    · cases h
    · next he =>
      refine ⟨(scan args).items, d, scan_eq_iff.1 ?_, exists_addAll_iff.1 ⟨d, hd⟩,
        Draft.says_empty.addAll hd, h⟩
      rw [← he]

/-- A line that says orderly items comes to what the draft of them comes to. -/
theorem exists_parse_eq (hw : Written items args) (ho : Orderly items) :
    ∃ d : Draft, d.Says items ∧ parse args = d.finish := by
  obtain ⟨d, hd⟩ := exists_addAll_iff.2 ho
  refine ⟨d, Draft.says_empty.addAll hd, ?_⟩
  unfold parse
  simp only [scan_eq_iff.2 hw, hd]

/-- The items of a line are determined by it. -/
theorem Written.eq {other : List Item} (h : Written items args) (h' : Written other args) :
    other = items := by
  have hs := (scan_eq_iff.2 h').symm.trans (scan_eq_iff.2 h)
  cases hs
  rfl

/-- Whatever line is accepted describes one build, and leaves the platform to the machine exactly if
it says so. A line that says known things, each at most once but `-v`, with values that the options
can have, and does not ask for help, is accepted if it describes one build, refused as contradictory
if it does not because of two platforms or two long descriptions, and refused as incomplete
otherwise. -/
theorem parse_accepts_unambiguous :
    (∀ args i, parse args = .ok i → (∃ items, Written items args) ∧
      ∀ items, Written items args →
        Unambiguous items ∧ (∀ m, m ≠ .verbose → occurrences items m ≤ 1) ∧
          (i.request.platform = .detect ↔ 0 < occurrences items (.switch .autoPlatform))) ∧
    (∀ items args, Written items args → Orderly items →
      ((∃ i, parse args = .ok i) ↔ Unambiguous items) ∧
      (parse args = .error .argumentConflict ↔ Contradictory items) ∧
      (parse args = .error .missingRequiredArgument ↔
        ¬Unambiguous items ∧ ¬Contradictory items)) := by
  refine ⟨fun args i h => ?_, fun items args hw ho => ?_⟩
  · obtain ⟨items, d, hw, ho, hs, hf⟩ := exists_of_parse_ok h
    refine ⟨⟨items, hw⟩, fun other hother => ?_⟩
    obtain rfl := hw.eq hother
    have hu := (hs.exists_finish_iff ho).1 ⟨i, hf⟩
    refine ⟨hu, ho.once, ?_⟩
    obtain ⟨-, name, version, binary, platform, -, -, -, hp, rfl⟩ := Draft.finish_eq_ok_iff.1 hf
    have hdetect := hs.platform?_eq_detect_iff ho
    rw [hp, Option.some.injEq] at hdetect
    have hone := hu.platform
    show platform = .detect ↔ _
    rw [hdetect]
    omega
  · obtain ⟨d, hs, hp⟩ := exists_parse_eq hw ho
    rw [hp]
    refine ⟨hs.exists_finish_iff ho, ?_, ?_⟩
    · rw [← hs.conflicts_iff ho]
      constructor
      · intro he
        rcases Draft.of_finish_error he with ⟨-, hc⟩ | ⟨he, -⟩
        · exact hc
        · cases he
      · exact Draft.finish_of_conflicts
    · rw [← hs.conflicts_iff ho, ← hs.exists_finish_iff ho]
      constructor
      · intro he
        rcases Draft.of_finish_error he with ⟨he', -⟩ | ⟨-, hc⟩
        · cases he'
        · simp [he, hc]
      · rintro ⟨hok, hc⟩
        cases hf : d.finish with
        | ok i => exact absurd ⟨i, hf⟩ hok
        | error error =>
          rcases Draft.of_finish_error hf with ⟨-, hc'⟩ | ⟨rfl, -⟩
          · exact absurd hc' hc
          · rfl

/-! ## Options that stand on the line -/

theorem Meaning.spelling_injective : Function.Injective spelling := by
  intro m n h
  have hm := Meaning.ofSpelling?_eq_some_iff.2 h
  have hn := Meaning.ofSpelling?_eq_some_iff.2 (Eq.refl n.spelling)
  exact Option.some.inj (hm.symm.trans hn)

theorem Word.ofBytes_longOption (m : Meaning) :
    ofBytes (longOption m.spelling) = .long (Utf8.encode m.spelling) none :=
  ofBytes_long none

/-- An item's own argument is a long option that has the item's meaning. -/
theorem Item.exists_ofBytes_argument (item : Item) : ∃ attached,
    Word.ofBytes item.argument = .long (Utf8.encode item.meaning.spelling) attached := by
  cases item with
  | value k given => exact ⟨some given, Word.ofBytes_long (m := .key k) (some given)⟩
  | switch s => exact ⟨none, Word.ofBytes_longOption (.switch s)⟩
  | verbose => exact ⟨none, Word.ofBytes_longOption .verbose⟩
  | help => exact ⟨none, Word.ofBytes_longOption .help⟩

theorem Item.meaning_of_argument {item : Item} {m : Meaning}
    (h : longOption m.spelling = item.argument) : item.meaning = m := by
  obtain ⟨attached, hword⟩ := item.exists_ofBytes_argument
  rw [← h, Word.ofBytes_longOption, Word.long.injEq] at hword
  exact (Meaning.spelling_injective (Utf8.encode_injective hword.1)).symm

/-- Where a long option stands there is an item of its meaning: it is no value. -/
theorem Item.meaning_of_writtenAs {item : Item} {written : List Bytes} {m : Meaning}
    (h : item.WrittenAs written) (hm : longOption m.spelling ∈ written) : item.meaning = m := by
  rcases h.cases with rfl | ⟨k, given, rfl, hs, rfl⟩
  · exact meaning_of_argument (List.mem_singleton.1 hm)
  · rcases List.mem_cons.1 hm with hm | hm
    · have hword := Word.ofBytes_longOption (.key k)
      rw [show longOption (Meaning.key k).spelling = longOption m.spelling from hm.symm,
        Word.ofBytes_longOption, Word.long.injEq] at hword
      exact (Meaning.spelling_injective (Utf8.encode_injective hword.1)).symm
    · have hplain := Word.ofBytes_eq_plain_iff.2 hs
      rw [← List.mem_singleton.1 hm, Word.ofBytes_longOption] at hplain
      cases hplain

/-- An option that stands on the line is among the items. -/
theorem Written.occurrences_pos {m : Meaning} (h : Written items args)
    (hm : longOption m.spelling ∈ args) : 0 < occurrences items m := by
  rw [occurrences_pos_iff]
  induction h with
  | nil => cases hm
  | ending =>
    have hword := Word.ofBytes_longOption m
    rw [List.mem_singleton.1 hm] at hword
    cases hword
  | item h rest ih =>
    rcases List.mem_append.1 hm with hm | hm
    · exact ⟨_, List.mem_cons_self, Item.meaning_of_writtenAs h hm⟩
    · obtain ⟨item, hitem, he⟩ := ih hm
      exact ⟨item, List.mem_cons_of_mem _ hitem, he⟩
  | letters hne h rest ih =>
    rcases List.mem_cons.1 hm with hm | hm
    · obtain ⟨letters, hcluster, -⟩ := ofBytes_cluster hne h
      have hword := Word.ofBytes_longOption m
      rw [hm, hcluster] at hword
      cases hword
    · obtain ⟨item, hitem, he⟩ := ih hm
      exact ⟨item, List.mem_append_right _ hitem, he⟩

/-- A line that asks for JSON comes to an invocation that does. -/
theorem json_of_parse_ok (h : parse args = .ok i) (hm : longOption "json" ∈ args) :
    i.json = true := by
  obtain ⟨items, d, hw, -, hs, hf⟩ := exists_of_parse_ok h
  obtain ⟨-, name, version, binary, platform, -, -, -, -, rfl⟩ := Draft.finish_eq_ok_iff.1 hf
  exact hs.switches_iff.2 (hw.occurrences_pos (m := .switch .json) hm)

theorem exists_of_isOk (h : (parse args).isOk = true) : ∃ i, parse args = .ok i := by
  cases hp : parse args with
  | error error =>
    rw [hp] at h
    cases h
  | ok i => exact ⟨i, rfl⟩

/-! ## Two lines -/

namespace Lines

/-- A line that describes a build, with letters after a dash and a value of its own. -/
def plain : List Bytes :=
  ["--name=x", "--version", "-", "--binary=t", "-vqv", "--auto-platform"].map Utf8.encode

/-- A line with two platforms and nothing else. -/
def crossed : List Bytes := ["--platform", "win_amd64", "--auto-platform"].map Utf8.encode

end Lines

/-- The first line is accepted and describes one build. The second one is contradictory, though the
name is missing too. -/
theorem parse_accepts_unambiguous_lines :
    (∃ i items, parse Lines.plain = .ok i ∧ Written items Lines.plain ∧ Unambiguous items ∧
      (i.request.platform = .detect ↔ 0 < occurrences items (.switch .autoPlatform))) ∧
    parse Lines.crossed = .error .argumentConflict := by
  have hok : (parse Lines.plain).isOk = true := by decide +kernel
  refine ⟨?_, ?_⟩
  · obtain ⟨i, hp⟩ := exists_of_isOk hok
    obtain ⟨⟨items, hw⟩, hall⟩ := parse_accepts_unambiguous.1 _ i hp
    obtain ⟨hu, -, hd⟩ := hall items hw
    exact ⟨i, items, hp, hw, hu, hd⟩
  · have hw : Written [.value .platform (Utf8.encode "win_amd64"), .switch .autoPlatform]
        Lines.crossed := scan_eq_iff.1 (by decide +kernel)
    have ho : Orderly [.value .platform (Utf8.encode "win_amd64"), .switch .autoPlatform] := by
      refine ⟨fun m _ => ?_, ?_, by decide⟩
      · have hall : ∀ m ∈ Meaning.all, occurrences
            [.value .platform (Utf8.encode "win_amd64"), .switch .autoPlatform] m ≤ 1 := by
          decide +kernel
        exact hall m m.mem_all
      · intro k given hm
        simp only [List.mem_cons, Item.value.injEq, reduceCtorEq, List.not_mem_nil, or_false] at hm
        obtain ⟨rfl, rfl⟩ := hm
        exact ⟨"win_amd64", rfl⟩
    apply (parse_accepts_unambiguous.2 _ _ hw ho).2.1.2
    exact .inl ⟨by decide, by decide⟩

end Wheelwright.CommandLine
