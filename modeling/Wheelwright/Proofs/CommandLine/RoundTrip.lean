import Wheelwright.Proofs.CommandLine.Acceptance
/-!
# Requests that are written and read back

Every request whose paths are not empty can be written as a command line, whatever bytes are in it:
the items that say it are orderly (`orderly_invocationItems`), and a draft that holds what they say
is finished as the request (`Draft.Says.finish_eq`). Since neither depends on the order of the
items, nor on how each of them is written, `parse_written` says of every order and every way to
write them that the request comes back.
-/

namespace Wheelwright

/-- No path of a request is empty. -/
structure WrapRequest.HasPaths (r : WrapRequest) : Prop where
  binary : r.binary.bytes ≠ []
  outputDir : ∀ p, r.outputDir = some p → p.bytes ≠ []
  readme : ∀ p, r.longDescription = some (.readme p) → p.bytes ≠ []

namespace CommandLine

/-! ## What a request says -/

/-- The bytes of a value on a command line. -/
def Value.bytes : Value → Bytes
  | .text s => Utf8.encode s
  | .path p => p.bytes

/-- The value that a request has for an option. -/
def value? (r : WrapRequest) : Key → Option Value
  | .name => some (.text r.name)
  | .version => some (.text r.version)
  | .binary => some (.path r.binary)
  | .platform =>
    match r.platform with
    | .explicit tag => some (.text tag)
    | .detect => none
  | .outputDir => r.outputDir.map .path
  | .entryPoint => r.entryPoint.map .text
  | .description => r.description.map .text
  | .author => r.author.map .text
  | .license => r.license.map .text
  | .url => r.url.map .text
  | .longDescription =>
    match r.longDescription with
    | some (.inline text) => some (.text text)
    | _ => none
  | .readme =>
    match r.longDescription with
    | some (.readme file) => some (.path file)
    | _ => none

/-- Whether an invocation has a switch on. -/
def isOn (i : Invocation) : Switch → Bool
  | .autoPlatform => i.request.platform = .detect
  | .quiet => i.quiet
  | .trace => i.trace
  | .json => i.json
  | .noColor => i.noColor

section items

variable {r : WrapRequest} {i : Invocation} {k k' : Key} {s s' : Switch} {given : Bytes}

theorem value_mem_textItem_iff {text : Option String} :
    Item.value k given ∈ textItem k' text ↔
      k = k' ∧ ∃ s, text = some s ∧ given = Utf8.encode s := by
  cases text <;> simp [textItem]

theorem value_mem_platformItem_iff {choice : PlatformChoice} :
    Item.value k given = platformItem choice ↔
      k = .platform ∧ ∃ tag, choice = .explicit tag ∧ given = Utf8.encode tag := by
  cases choice <;> simp [platformItem]

theorem value_mem_outputDir_iff {dir : Option Path} :
    Item.value k given ∈ (dir.map fun p => Item.value .outputDir p.bytes).toList ↔
      k = .outputDir ∧ ∃ p, dir = some p ∧ given = p.bytes := by
  cases dir <;> simp

theorem value_mem_descriptionItems_iff {description : Option LongDescription} :
    Item.value k given ∈ descriptionItems description ↔
      (k = .longDescription ∧ ∃ s, description = some (.inline s) ∧ given = Utf8.encode s) ∨
        (k = .readme ∧ ∃ p, description = some (.readme p) ∧ given = p.bytes) := by
  rcases description with - | (text | file) <;> simp [descriptionItems]

/-- The items of a request give its values and no others. -/
theorem value_mem_requestItems_iff :
    Item.value k given ∈ requestItems r ↔ ∃ v, value? r k = some v ∧ given = v.bytes := by
  unfold requestItems
  simp only [List.mem_append, List.mem_cons, value_mem_textItem_iff, value_mem_platformItem_iff,
    value_mem_outputDir_iff, value_mem_descriptionItems_iff]
  cases k with
  | platform => cases hp : r.platform <;> simp [value?, Value.bytes, hp]
  | longDescription =>
    rcases hl : r.longDescription with - | (text | file) <;> simp [value?, Value.bytes, hl]
  | readme =>
    rcases hl : r.longDescription with - | (text | file) <;> simp [value?, Value.bytes, hl]
  | outputDir => cases ho : r.outputDir <;> simp [value?, Value.bytes, ho]
  | _ => simp [value?, Value.bytes]

/-- Of the switches, the items of a request give none but the one for the machine's platform. -/
theorem switch_mem_requestItems_iff :
    Item.switch s ∈ requestItems r ↔ s = .autoPlatform ∧ r.platform = .detect := by
  have htext : ∀ k text, Item.switch s ∉ textItem k text := by
    intro k text
    cases text <;> simp [textItem]
  have hdescription : Item.switch s ∉ descriptionItems r.longDescription := by
    rcases r.longDescription with - | (text | file) <;> simp [descriptionItems]
  unfold requestItems
  simp only [List.mem_append, List.mem_cons, htext, hdescription]
  cases r.platform <;> simp [platformItem]

theorem value_mem_invocationItems_iff : Item.value k given ∈ invocationItems i ↔
    ∃ v, value? i.request k = some v ∧ given = v.bytes := by
  rw [← value_mem_requestItems_iff]
  have hswitch : ∀ s on, Item.value k given ∉ switchItem s on := by
    intro s on
    cases on <;> simp [switchItem]
  simp [invocationItems, hswitch, List.mem_replicate]

theorem switch_mem_invocationItems_iff :
    Item.switch s ∈ invocationItems i ↔ isOn i s = true := by
  have hswitch : ∀ s' on, Item.switch s ∈ switchItem s' on ↔ s = s' ∧ on = true := by
    intro s' on
    cases on <;> simp [switchItem]
  simp only [invocationItems, List.mem_append, switch_mem_requestItems_iff, hswitch,
    List.mem_replicate]
  cases s <;> simp [isOn]

/-! ## It can all be said -/

/-- What a request may say, in the order in which it is said. -/
def requestMeanings : List Meaning :=
  [.key .name, .key .version, .key .binary, .key .platform, .switch .autoPlatform,
    .key .outputDir, .key .entryPoint, .key .description, .key .author, .key .license, .key .url,
    .key .longDescription, .key .readme]

theorem map_meaning_requestItems (r : WrapRequest) :
    ((requestItems r).map Item.meaning).Sublist requestMeanings := by
  have htext : ∀ k text, ((textItem k text).map Item.meaning).Sublist [.key k] := by
    intro k text
    cases text <;> simp [textItem, Item.meaning]
  have hfirst : ([.value .name (Utf8.encode r.name), .value .version (Utf8.encode r.version),
      .value .binary r.binary.bytes, platformItem r.platform].map Item.meaning).Sublist
      [.key .name, .key .version, .key .binary, .key .platform, .switch .autoPlatform] := by
    cases r.platform <;> simp [platformItem, Item.meaning]
  have hdir : ((r.outputDir.map fun p => Item.value .outputDir p.bytes).toList.map
      Item.meaning).Sublist [.key .outputDir] := by
    cases r.outputDir <;> simp [Item.meaning]
  have hdescription : ((descriptionItems r.longDescription).map Item.meaning).Sublist
      [.key .longDescription, .key .readme] := by
    rcases r.longDescription with - | (text | file) <;> simp [descriptionItems, Item.meaning]
  have hall := (((((((hfirst.append hdir).append (htext .entryPoint r.entryPoint)).append
    (htext .description r.description)).append (htext .author r.author)).append
    (htext .license r.license)).append (htext .url r.url)).append hdescription)
  simp only [requestItems, List.map_append]
  exact hall

/-- What an invocation may say but `-v`, in the order in which it is said. -/
def invocationMeanings : List Meaning :=
  requestMeanings ++ [.switch .quiet, .switch .trace, .switch .json, .switch .noColor]

theorem occurrences_invocationItems_le (i : Invocation) {m : Meaning} (hm : m ≠ .verbose) :
    occurrences (invocationItems i) m ≤ invocationMeanings.count m := by
  have hswitch : ∀ s on, occurrences (switchItem s on) m ≤ [Meaning.switch s].count m := by
    intro s on
    cases on <;> simp [switchItem, occurrences, Item.meaning]
  have hverbose : occurrences (List.replicate i.verbosity .verbose) m = 0 := by
    simp [occurrences, Item.meaning, List.count_replicate, hm.symm]
  have hrequest := (map_meaning_requestItems i.request).count_le m
  have hquiet := hswitch .quiet i.quiet
  have htrace := hswitch .trace i.trace
  have hjson := hswitch .json i.json
  have hcolor := hswitch .noColor i.noColor
  have hparts : invocationMeanings.count m = requestMeanings.count m +
      [Meaning.switch .quiet].count m + [Meaning.switch .trace].count m +
      [Meaning.switch .json].count m + [Meaning.switch .noColor].count m := by
    simp only [← List.count_append]
    rfl
  simp only [invocationItems, occurrences_append, hverbose]
  unfold occurrences at *
  omega

/-- A value of a request whose paths are not empty is read back from its bytes. -/
theorem ofBytes_value? {v : Value} (hp : r.HasPaths) (hv : value? r k = some v) :
    Value.ofBytes k v.bytes = .ok v := by
  have htext : ∀ s, k.takesPath = false → Value.ofBytes k (Utf8.encode s) = .ok (.text s) := by
    intro s hk
    simp [Value.ofBytes, hk]
  have hpath : ∀ p : Path, p.bytes ≠ [] → k.takesPath = true →
      Value.ofBytes k p.bytes = .ok (.path p) := by
    intro p hb hk
    simp [Value.ofBytes, hk, hb]
  cases k with
  | binary =>
    cases hv
    exact hpath _ hp.binary rfl
  | outputDir =>
    obtain ⟨p, ho, rfl⟩ := Option.map_eq_some_iff.1 hv
    exact hpath p (hp.outputDir p ho) rfl
  | readme =>
    simp only [value?] at hv
    split at hv
    · next file hl =>
      cases hv
      exact hpath file (hp.readme file hl) rfl
    · cases hv
  | name =>
    cases hv
    exact htext _ rfl
  | version =>
    cases hv
    exact htext _ rfl
  | platform =>
    simp only [value?] at hv
    split at hv
    · cases hv
      exact htext _ rfl
    · cases hv
  | longDescription =>
    simp only [value?] at hv
    split at hv
    · cases hv
      exact htext _ rfl
    · cases hv
  | _ =>
    obtain ⟨s, -, rfl⟩ := Option.map_eq_some_iff.1 hv
    exact htext s rfl

/-- The items of an invocation can go together. -/
theorem orderly_invocationItems (hp : i.request.HasPaths) : Orderly (invocationItems i) where
  once := by
    intro m hm
    have hle := occurrences_invocationItems_le i hm
    have hall : ∀ m ∈ Meaning.all, invocationMeanings.count m ≤ 1 := by decide +kernel
    exact hle.trans (hall m m.mem_all)
  valid := by
    intro k given hm
    obtain ⟨v, hv, rfl⟩ := value_mem_invocationItems_iff.1 hm
    exact Value.exists_ofBytes_iff.1 ⟨v, ofBytes_value? hp hv⟩
  noHelp := by
    intro hm
    have hpos : 0 < occurrences (invocationItems i) .help := occurrences_pos_iff.2 ⟨_, hm, rfl⟩
    have hle := occurrences_invocationItems_le i (m := .help) nofun
    have hzero : invocationMeanings.count .help = 0 := by decide
    omega

end items

/-! ## What is read back -/

namespace Draft

variable {d : Draft} {i : Invocation} {k : Key}

section said

variable (h : d.Says (invocationItems i))
include h

/-- The draft holds the values of the request. -/
theorem Says.lookup_eq (hp : i.request.HasPaths) (k : Key) :
    d.values.lookup k = value? i.request k := by
  apply Option.ext
  intro v
  rw [h.value]
  constructor
  · rintro ⟨given, hm, hv⟩
    obtain ⟨v', hv', rfl⟩ := value_mem_invocationItems_iff.1 hm
    rw [ofBytes_value? hp hv', Except.ok.injEq] at hv
    rw [hv', hv]
  · intro hv
    exact ⟨v.bytes, value_mem_invocationItems_iff.2 ⟨v, hv, rfl⟩, ofBytes_value? hp hv⟩

theorem Says.contains_eq (s : Switch) : d.switches.contains s = isOn i s := by
  rw [Bool.eq_iff_iff, List.contains_iff_mem, h.switch, switch_mem_invocationItems_iff]

theorem Says.verbosity_eq : d.verbosity = i.verbosity := by
  have hrequest : Item.verbose ∉ requestItems i.request := by
    intro hm
    have hmem := (map_meaning_requestItems i.request).subset (List.mem_map_of_mem hm)
    exact absurd hmem (by decide)
  have hswitch : ∀ s on, Item.verbose ∉ switchItem s on := by
    intro s on
    cases on <;> simp [switchItem]
  rw [h.verbosity]
  simp [invocationItems, List.count_eq_zero_of_not_mem hrequest,
    List.count_eq_zero_of_not_mem (hswitch _ _)]

/-- The draft is finished as the invocation, with `-v` counted as far as it counts. -/
theorem Says.finish_eq (hp : i.request.HasPaths) :
    d.finish = .ok { i with verbosity := min i.verbosity highestVerbosity } := by
  have hlookup := h.lookup_eq hp
  have hswitch := h.contains_eq
  have hplatform : d.platform? = some i.request.platform := by
    simp only [platform?, text?, hlookup, hswitch, value?, isOn]
    cases i.request.platform <;> rfl
  have hdescription : d.longDescription? = i.request.longDescription := by
    simp only [longDescription?, text?, path?, hlookup, value?]
    rcases i.request.longDescription with - | (text | file) <;> rfl
  have hconflicts : d.conflicts = false := by
    simp only [conflicts, has, hlookup, hswitch, value?, isOn]
    cases i.request.platform <;> rcases i.request.longDescription with - | (text | file) <;> rfl
  refine finish_eq_ok_iff.2 ⟨hconflicts, i.request.name, i.request.version, i.request.binary,
    i.request.platform, ?_, ?_, ?_, hplatform, ?_⟩
  · simp only [text?, hlookup, value?]
  · simp only [text?, hlookup, value?]
  · simp only [path?, hlookup, value?]
  · have htext : ∀ (k : Key) (text : Option String), value? i.request k = text.map .text →
        d.text? k = text := by
      intro k text hk
      rw [text?, hlookup, hk]
      cases text <;> rfl
    have hdir : d.path? .outputDir = i.request.outputDir := by
      rw [path?, hlookup, value?]
      cases i.request.outputDir <;> rfl
    rw [invocation, hdir, hdescription, htext .entryPoint _ rfl, htext .description _ rfl,
      htext .author _ rfl, htext .license _ rfl, htext .url _ rfl, h.verbosity_eq]
    simp only [hswitch]
    rfl

end said
end Draft

/-- An item with the value, if it has one, as an argument of its own wherever that can be. -/
def Item.spread (item : Item) : List Bytes :=
  if item.isSeparable then item.separateArguments else [item.argument]

theorem Item.writtenAs_spread (item : Item) : item.WrittenAs item.spread := by
  unfold spread
  split
  · next hs => exact .separate hs
  · exact .attached item

/-- An invocation with an empty name, values that look like options, and a path that is no text. -/
def Lines.odd : Invocation where
  request := {
    name := ""
    version := "--version=1"
    binary := ⟨[0xFF, 0x3D]⟩
    platform := .explicit "-"
    outputDir := some ⟨[0x2D, 0xFE]⟩
    entryPoint := some "="
    description := none
    author := some "-v"
    license := none
    url := some ""
    longDescription := some (.readme (.ofString "--")) }
  quiet := true
  verbosity := 300
  trace := false
  json := true
  noColor := true

end CommandLine
end Wheelwright
