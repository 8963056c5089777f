import Mathlib.Logic.Relation
import Wheelwright.Proofs.CommandLine.Acceptance
/-!
# Flags that say how a run is shown

Some flags ask for nothing to be done: `-q`, `-v`, `--trace`, `--json` and `--no-color` say how much
of a run is shown, and in which form. Such a flag may stand anywhere on a line, but not between an
option and a value of its own and not behind two dashes (`Admits`). `Restyled` lines come from one
another when flags are put in and taken out. The main statement is `Restyled.parse_iff`: a line that
is restyled can be read whenever the other one is accepted, is accepted itself exactly if it gives no
flag twice, and then asks for the same.
-/

namespace Wheelwright.CommandLine

/-! ## What is asked for, and how it is shown -/

/-- An item that only says how a run is shown. -/
def Item.isPresentation : Item → Bool
  | .switch .quiet | .switch .trace | .switch .json | .switch .noColor | .verbose => true
  | _ => false

/-- What items ask for, without how it is shown. -/
def essentials (items : List Item) : List Item := items.filter (!·.isPresentation)

section essentials

variable {items items' said : List Item} {item : Item} {m : Meaning}

@[simp] theorem essentials_append (before after : List Item) :
    essentials (before ++ after) = essentials before ++ essentials after := by
  simp [essentials]

theorem essentials_eq_nil (h : ∀ item ∈ said, item.isPresentation = true) :
    essentials said = [] := by
  rw [essentials, List.filter_eq_nil_iff]
  intro item hm
  simp [h item hm]

theorem mem_essentials_iff : item ∈ essentials items ↔
    item ∈ items ∧ item.isPresentation = false := by
  simp [essentials]

/-- What is no matter of presentation is said as often by the essentials. -/
theorem occurrences_essentials (h : ∀ item : Item, item.meaning = m → item.isPresentation = false)
    (items : List Item) : occurrences (essentials items) m = occurrences items m := by
  induction items with
  | nil => rfl
  | cons item items ih =>
    rw [← List.singleton_append, essentials_append, occurrences_append, occurrences_append, ih]
    by_cases hp : item.isPresentation = true
    · have hne : item.meaning ≠ m := by
        intro hm
        rw [h item hm] at hp
        cases hp
      simp [essentials, occurrences, hp, hne]
    · simp [essentials, hp]

theorem occurrences_key_congr (h : essentials items' = essentials items) (k : Key) :
    occurrences items' (.key k) = occurrences items (.key k) := by
  have hk : ∀ item : Item, item.meaning = .key k → item.isPresentation = false := by
    intro item hm
    cases item with
    | value k' given => rfl
    | switch s => cases hm
    | verbose => cases hm
    | help => cases hm
  rw [← occurrences_essentials hk, h, occurrences_essentials hk]

theorem mem_congr (h : essentials items' = essentials items) (hp : item.isPresentation = false) :
    item ∈ items' ↔ item ∈ items := by
  have hm : item ∈ essentials items' ↔ item ∈ essentials items := by rw [h]
  simpa [mem_essentials_iff, hp] using hm

/-- Whether items go together depends on what they ask for, and on that no flag is there twice. -/
theorem Orderly.of_essentials (ho : Orderly items) (h : essentials items' = essentials items)
    (hs : ∀ s, occurrences items' (.switch s) ≤ 1) : Orderly items' where
  once := by
    intro m hm
    cases m with
    | key k =>
      rw [occurrences_key_congr h]
      exact ho.once (.key k) nofun
    | switch s => exact hs s
    | verbose => exact absurd rfl hm
    | help =>
      have hno : .help ∉ items' := by
        rw [mem_congr h rfl]
        exact ho.noHelp
      have hzero : ¬0 < occurrences items' .help := by
        rw [occurrences_pos_iff]
        rintro ⟨item, hmem, hi⟩
        cases item with
        | value k given => cases hi
        | switch s => cases hi
        | verbose => cases hi
        | help => exact hno hmem
      omega
  valid := by
    intro k given hm
    exact ho.valid k given ((mem_congr h rfl).1 hm)
  noHelp := by
    rw [mem_congr h rfl]
    exact ho.noHelp

end essentials

/-! ## Where a flag may stand -/

/-- One argument that says presentation items only: a long option, or letters after one dash. -/
inductive Flag : List Item → Bytes → Prop
  | long {item : Item} (h : item.isPresentation = true) : Flag [item] item.argument
  | letters {said : List Item} (hne : said ≠ []) (hl : ∀ item ∈ said, item.letter?.isSome)
      (h : ∀ item ∈ said, item.isPresentation = true) : Flag said (cluster said)

/-- A flag may follow these arguments: the last one is no option that waits for its value, and none
of them ends the options. -/
structure Admits (before : List Bytes) : Prop where
  complete : ∀ k : Key, before.getLast? ≠ some (longOption k.spelling)
  ongoing : endOfOptions ∉ before

/-- The second line is the first with a flag put in. -/
inductive Inserted : List Bytes → List Bytes → Prop
  | flag {before after : List Bytes} {said : List Item} {flag : Bytes} (hb : Admits before)
      (h : Flag said flag) : Inserted (before ++ after) (before ++ flag :: after)

/-- Flags are put in and taken out, one after another, until the first line is the second. -/
def Restyled : List Bytes → List Bytes → Prop :=
  Relation.ReflTransGen fun args args' => Inserted args args' ∨ Inserted args' args

section insertion

variable {items said front rest : List Item} {args args' before after : List Bytes} {flag : Bytes}

theorem Flag.essentials_eq_nil (h : Flag said flag) : essentials said = [] := by
  cases h with
  | long h => exact CommandLine.essentials_eq_nil (by simpa using h)
  | letters hne hl h => exact CommandLine.essentials_eq_nil h

theorem Flag.written (h : Flag said flag) (hw : Written rest args) :
    Written (said ++ rest) (flag :: args) := by
  cases h with
  | long h => exact .item (.attached _) hw
  | letters hne hl h => exact .letters hne hl hw

/-- A line that begins with a flag says the flag's items first. -/
theorem Flag.exists_of_written (h : Flag said flag) (hw : Written items (flag :: args)) :
    ∃ rest, items = said ++ rest ∧ Written rest args := by
  have hscan : scanFrom .nothing (flag :: args) =
      Pending.nothing.then ((scanFrom .nothing args).after said) := by
    cases h with
    | long h => exact scanFrom_argument .nothing _ args
    | letters hne hl h => exact scanFrom_cluster .nothing hne hl args
  have hfound : scanFrom .nothing (flag :: args) = ⟨items, none⟩ := scan_eq_iff.2 hw
  rw [hscan] at hfound
  obtain ⟨before, more, hb, hr, rfl⟩ := Pending.exists_of_then hfound
  obtain ⟨rest, hrest, rfl⟩ := Reading.exists_of_after hr
  cases hb
  exact ⟨rest, rfl, scan_eq_iff.1 hrest⟩

theorem Admits.nil : Admits [] := ⟨nofun, nofun⟩

/-- Nothing is open further on the line if it is not at the start. -/
theorem Admits.tail {arg : Bytes} (h : Admits (arg :: before)) : Admits before where
  complete := by
    intro k hk
    cases before with
    | nil => cases hk
    | cons next before =>
      apply h.complete k
      rwa [List.getLast?_cons_cons]
  ongoing := fun hm => h.ongoing (List.mem_cons_of_mem arg hm)

/-- Where a flag may stand, a line falls into two, each of which says a part of the items. -/
theorem Written.exists_split (h : Written items (before ++ after)) (hb : Admits before) :
    ∃ front rest, items = front ++ rest ∧ Written front before ∧ Written rest after := by
  generalize hargs : before ++ after = args at h
  induction h generalizing before with
  | nil =>
    obtain ⟨rfl, rfl⟩ := List.append_eq_nil_iff.1 hargs
    exact ⟨[], [], rfl, .nil, .nil⟩
  | ending =>
    cases before with
    | nil =>
      rw [List.nil_append] at hargs
      exact ⟨[], [], rfl, .nil, hargs ▸ .ending⟩
    | cons arg before =>
      rw [List.cons_append, List.cons.injEq] at hargs
      exact absurd (hargs.1 ▸ List.mem_cons_self) hb.ongoing
  | @item item items written args hi hw ih =>
    cases before with
    | nil =>
      rw [List.nil_append] at hargs
      exact ⟨[], item :: items, rfl, .nil, hargs ▸ .item hi hw⟩
    | cons arg before =>
      rcases hi.cases with rfl | ⟨k, given, rfl, hs, rfl⟩
      · rw [List.cons_append, List.singleton_append, List.cons.injEq] at hargs
        obtain ⟨rfl, hargs⟩ := hargs
        obtain ⟨front, rest, rfl, hf, hr⟩ := ih hb.tail hargs
        exact ⟨item :: front, rest, rfl, .item (.attached item) hf, hr⟩
      · rw [List.cons_append, List.cons_append, List.singleton_append, List.cons.injEq] at hargs
        obtain ⟨rfl, hargs⟩ := hargs
        cases before with
        | nil => exact absurd rfl (hb.complete k)
        | cons value before =>
          rw [List.cons_append, List.cons.injEq] at hargs
          obtain ⟨rfl, hargs⟩ := hargs
          obtain ⟨front, rest, rfl, hf, hr⟩ := ih hb.tail.tail hargs
          exact ⟨.value k value :: front, rest, rfl, .item (.separate hs) hf, hr⟩
  | @letters said items args hne hl hw ih =>
    cases before with
    | nil =>
      rw [List.nil_append] at hargs
      exact ⟨[], said ++ items, rfl, .nil, hargs ▸ .letters hne hl hw⟩
    | cons arg before =>
      rw [List.cons_append, List.cons.injEq] at hargs
      obtain ⟨rfl, hargs⟩ := hargs
      obtain ⟨front, rest, rfl, hf, hr⟩ := ih hb.tail hargs
      exact ⟨said ++ front, rest, (List.append_assoc _ _ _).symm, .letters hne hl hf, hr⟩

/-- Lines can be joined if the first does not end the options. -/
theorem Written.append (hf : Written front before) (ho : endOfOptions ∉ before)
    (hr : Written rest after) : Written (front ++ rest) (before ++ after) := by
  induction hf with
  | nil => exact hr
  | ending => exact absurd List.mem_cons_self ho
  | @item item items written args hi _ ih =>
    rw [List.cons_append, List.append_assoc]
    exact .item hi (ih fun hm => ho (List.mem_append_right _ hm))
  | @letters said items args hne hl _ ih =>
    rw [List.append_assoc, List.cons_append]
    exact .letters hne hl (ih fun hm => ho (List.mem_cons_of_mem _ hm))

/-- With a flag put in, a line can still be read, and asks for the same. -/
theorem Inserted.exists_written (h : Inserted args args') (hw : Written items args) :
    ∃ items', Written items' args' ∧ essentials items' = essentials items := by
  cases h with
  | @flag before after said flag hb h =>
    obtain ⟨front, rest, rfl, hf, hr⟩ := hw.exists_split hb
    refine ⟨front ++ (said ++ rest), hf.append hb.ongoing (h.written hr), ?_⟩
    simp [h.essentials_eq_nil]

/-- So it can with a flag taken out. -/
theorem Inserted.exists_written_of (h : Inserted args' args) (hw : Written items args) :
    ∃ items', Written items' args' ∧ essentials items' = essentials items := by
  cases h with
  | @flag before after said flag hb h =>
    obtain ⟨front, more, rfl, hf, hm⟩ := hw.exists_split hb
    obtain ⟨rest, rfl, hr⟩ := h.exists_of_written hm
    refine ⟨front ++ rest, hf.append hb.ongoing hr, ?_⟩
    simp [h.essentials_eq_nil]

/-- A restyled line can be read, and asks for the same. -/
theorem Restyled.exists_written (h : Restyled args args') (hw : Written items args) :
    ∃ items', Written items' args' ∧ essentials items' = essentials items := by
  induction h with
  | refl => exact ⟨items, hw, rfl⟩
  | tail _ hstep ih =>
    obtain ⟨mid, hmid, he⟩ := ih
    rcases hstep with hin | hout
    · obtain ⟨items', hw', he'⟩ := hin.exists_written hmid
      exact ⟨items', hw', he'.trans he⟩
    · obtain ⟨items', hw', he'⟩ := hout.exists_written_of hmid
      exact ⟨items', hw', he'.trans he⟩

end insertion

/-! ## What comes of a restyled line -/

/-- The invocation is to be shown as the items say. -/
structure Invocation.StyledBy (i : Invocation) (items : List Item) : Prop where
  quiet : i.quiet = true ↔ .switch .quiet ∈ items
  trace : i.trace = true ↔ .switch .trace ∈ items
  json : i.json = true ↔ .switch .json ∈ items
  noColor : i.noColor = true ↔ .switch .noColor ∈ items
  verbosity : i.verbosity = min (items.count .verbose) Draft.highestVerbosity

namespace Draft

variable {d d' : Draft} {items items' : List Item} {i : Invocation}

theorem Says.styledBy (h : d.Says items) (hf : d.finish = .ok i) : i.StyledBy items := by
  have hs : ∀ s, d.switches.contains s = true ↔ .switch s ∈ items := by
    intro s
    rw [h.switches_iff, occurrences_switch_pos_iff]
  obtain ⟨-, name, version, binary, platform, -, -, -, -, rfl⟩ := finish_eq_ok_iff.1 hf
  exact ⟨hs .quiet, hs .trace, hs .json, hs .noColor, by rw [invocation, h.verbosity]⟩

/-- Drafts of items that ask for the same come to the same request. -/
theorem Says.exists_finish_of_essentials (h : d.Says items) (h' : d'.Says items')
    (he : essentials items' = essentials items) (hf : d.finish = .ok i) :
    ∃ i', d'.finish = .ok i' ∧ i'.request = i.request := by
  have hl : ∀ k, d'.values.lookup k = d.values.lookup k := by
    intro k
    apply Option.ext
    intro v
    have hm : ∀ given, .value k given ∈ items' ↔ .value k given ∈ items :=
      fun given => mem_congr he rfl
    simp only [h.value, h'.value, hm]
  have hauto : d'.switches.contains .autoPlatform = d.switches.contains .autoPlatform := by
    rw [Bool.eq_iff_iff, h.switches_iff, h'.switches_iff, occurrences_switch_pos_iff,
      occurrences_switch_pos_iff]
    exact mem_congr he rfl
  have hhas : ∀ k, d'.has k = d.has k := by
    intro k
    rw [has, has, hl]
  have htext : ∀ k, d'.text? k = d.text? k := by
    intro k
    rw [text?, text?, hl]
  have hpath : ∀ k, d'.path? k = d.path? k := by
    intro k
    rw [path?, path?, hl]
  obtain ⟨hc, name, version, binary, platform, hn, hv, hb, hp, rfl⟩ := finish_eq_ok_iff.1 hf
  refine ⟨d'.invocation name version binary platform, finish_eq_ok_iff.2 ⟨?_, name, version,
    binary, platform, ?_, ?_, ?_, ?_, rfl⟩, ?_⟩
  · rw [← hc, conflicts, conflicts, hauto, hhas, hhas, hhas]
  · rw [htext, hn]
  · rw [htext, hv]
  · rw [hpath, hb]
  · rw [← hp, platform?, platform?, htext, hauto]
  · simp only [invocation, longDescription?, htext, hpath]

end Draft

/-- A line that comes from an accepted one by putting flags in and taking flags out can be read. It
is accepted exactly if no flag is on it twice; then it asks for the same, and each of the two is to
be shown as its own items say. -/
theorem Restyled.parse_iff {args args' : List Bytes} {i : Invocation} (hr : Restyled args args')
    (h : parse args = .ok i) : ∃ items items', Written items args ∧ Written items' args' ∧
      i.StyledBy items ∧
      ((∃ i', parse args' = .ok i') ↔ ∀ s, occurrences items' (.switch s) ≤ 1) ∧
      ∀ i', parse args' = .ok i' → i'.request = i.request ∧ i'.StyledBy items' := by
  obtain ⟨items, d, hw, ho, hd, hf⟩ := exists_of_parse_ok h
  obtain ⟨items', hw', he⟩ := hr.exists_written hw
  refine ⟨items, items', hw, hw', hd.styledBy hf, ⟨?_, ?_⟩, ?_⟩
  · rintro ⟨i', h'⟩ s
    obtain ⟨other, d', hother, ho', -, -⟩ := exists_of_parse_ok h'
    obtain rfl := hw'.eq hother
    exact ho'.once (.switch s) nofun
  · intro hs
    obtain ⟨d', hd', hparse⟩ := exists_parse_eq hw' (ho.of_essentials he hs)
    obtain ⟨i', hi', -⟩ := hd.exists_finish_of_essentials hd' he hf
    exact ⟨i', hparse.trans hi'⟩
  · intro i' h'
    obtain ⟨other, d', hother, -, hd', hf'⟩ := exists_of_parse_ok h'
    obtain rfl := hw'.eq hother
    obtain ⟨same, hsame, hrequest⟩ := hd.exists_finish_of_essentials hd' he hf
    obtain rfl : same = i' := Except.ok.inj (hsame.symm.trans hf')
    exact ⟨hrequest, hd'.styledBy hf'⟩

end Wheelwright.CommandLine
