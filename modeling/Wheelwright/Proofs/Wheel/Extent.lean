import Mathlib.Data.Nat.Digits.Defs
import Wheelwright.Archive.Zip
import Wheelwright.Proofs.Record
import Wheelwright.Proofs.Text.Utf8
import Wheelwright.Wheel.Plan
/-!
# How large the members of a wheel are

Every text of a wheel is bounded by the texts that go into it, each of which stands in it a few
times at most: no member but the program is much larger than the texts of the request together
(`length_content_le_of_mem_listed`). The main statement is `length_le_of_mem_plan`: with texts of
ordinary length, and packed by a codec that does not waste room, only the program can be too large
for an archive.
-/

namespace Wheelwright

/-! ## Texts -/

theorem length_flatMap_le {α β : Type} {f : α → List β} {k : Nat} (l : List α)
    (h : ∀ a, (f a).length ≤ k) : (l.flatMap f).length ≤ k * l.length := by
  induction l with
  | nil => exact Nat.zero_le _
  | cons a l ih =>
    have ha := h a
    rw [List.flatMap_cons, List.length_append, List.length_cons, Nat.mul_succ]
    omega

/-- A character takes four bytes at most. -/
theorem Utf8.length_encode_le (s : String) : (Utf8.encode s).length ≤ 4 * s.length := by
  apply length_flatMap_le s.toList
  intro c
  unfold Utf8.encodeChar
  dsimp only
  split
  · exact Nat.le_of_ble_eq_true rfl
  · split
    · exact Nat.le_of_ble_eq_true rfl
    · split
      · exact Nat.le_of_ble_eq_true rfl
      · exact Nat.le_of_ble_eq_true rfl

/-- A small letter is two characters at most. -/
theorem length_normalize_le (name : String) : (normalize name).length ≤ 2 * name.length := by
  rw [← String.length_toList, toList_normalize]
  apply length_flatMap_le name.toList
  intro c
  unfold normalizeChar Text.lowerChar
  split
  · exact Nat.le_of_ble_eq_true rfl
  · split
    · exact Nat.le_of_ble_eq_true rfl
    · split
      · exact Nat.le_of_ble_eq_true rfl
      · exact Nat.le_of_ble_eq_true rfl

theorem Literal.length_write_le (s : String) : (Literal.write s).length ≤ 2 * s.length + 2 := by
  have h : (s.toList.flatMap Literal.escapeChar).length ≤ 2 * s.toList.length := by
    apply length_flatMap_le s.toList
    intro c
    unfold Literal.escapeChar
    split_ifs <;> exact Nat.le_of_ble_eq_true rfl
  simp only [Literal.write, ← String.length_toList, String.toList_append, String.toList_ofList,
    List.length_append]
  have hq : "\"".toList.length = 1 := rfl
  omega

/-! ## The launcher -/

namespace Launcher

theorem length_textOfLines (lines : List String) :
    (textOfLines lines).length = (lines.map fun line => line.length + 1).sum := by
  rw [textOfLines, String.length_join, List.map_map]
  congr 1
  apply List.map_congr_left
  intro line _
  exact String.length_append line "\n"

theorem length_lines_le (lines : List String) : (lines.map fun line => line.length + 1).sum ≤
    (lines.map fun line => line.utf8ByteSize + 1).sum := by
  induction lines with
  | nil => exact Nat.le_refl 0
  | cons line lines ih =>
    have hl := Utf8.length_le_utf8ByteSize line
    simp only [List.map_cons, List.sum_cons]
    omega

/-- The bytes of the lines that are always the same. -/
theorem sum_fixed_lines : (before.map fun line => line.utf8ByteSize + 1).sum +
    (between.map fun line => line.utf8ByteSize + 1).sum +
      (after.map fun line => line.utf8ByteSize + 1).sum = 1081 := by
  decide +kernel

theorem length_initModule_le (version binaryName : String) :
    (initModule version binaryName).length ≤
      1081 + ((Literal.write version).length + (Literal.write binaryName).length + 31) := by
  -- for any lines, so that nothing works out the lengths of these
  have hsum : ∀ (before between after : List String) (v b : String),
      ((before ++ ("__version__ = " ++ v) :: (between ++ ("_BINARY_NAME = " ++ b) :: after)).map
        fun line => line.length + 1).sum =
      (before.map fun line => line.length + 1).sum + (between.map fun line => line.length + 1).sum +
        (after.map fun line => line.length + 1).sum + (v.length + b.length + 31) := by
    intro before between after v b
    have hversion : "__version__ = ".length = 14 := rfl
    have hname : "_BINARY_NAME = ".length = 15 := rfl
    simp only [List.map_append, List.map_cons, List.sum_append, List.sum_cons,
      String.length_append, hversion, hname]
    omega
  rw [initModule, length_textOfLines, initLines_eq, hsum, ← sum_fixed_lines]
  exact Nat.add_le_add_right (Nat.add_le_add (Nat.add_le_add (length_lines_le before)
    (length_lines_le between)) (length_lines_le after)) _

theorem length_mainModule_le : mainModule.length ≤ 58 := by
  have hfixed : (mainLines.map fun line => line.utf8ByteSize + 1).sum = 58 := by decide +kernel
  rw [mainModule, length_textOfLines, ← hfixed]
  exact length_lines_le mainLines

end Launcher

/-! ## The descriptors -/

namespace HeaderText

/-- The characters of a header on its line. -/
def width (h : String × String) : Nat := h.1.length + h.2.length + 3

theorem length_block (headers : List (String × String)) :
    (block headers).length = (headers.map width).sum := by
  induction headers with
  | nil => rfl
  | cons h headers ih =>
    rw [block] at ih ⊢
    rw [List.flatMap_cons, List.length_append, ih, List.map_cons, List.sum_cons]
    simp [line, width, String.length_toList]
    omega

theorem length_render_le (t : HeaderText) :
    t.render.length ≤ (t.headers.map width).sum + (t.body.getD "").length + 1 := by
  rw [render, String.length_ofList, List.length_append, length_block]
  cases t.body with
  | none => simp
  | some body => simp [String.length_toList]; omega

end HeaderText

namespace CoreMetadata

theorem length_headerValue (value : String) : (headerValue value).length = value.length := by
  simp [headerValue, String.length_toList]

theorem sum_optionalHeader_le (field : String) (value : Option String) (hf : field.length ≤ 30) :
    ((optionalHeader field value).map (HeaderText.width ∘ tidy)).sum ≤
      33 + (value.getD "").length := by
  cases value with
  | none => simp [optionalHeader]
  | some v =>
    simp only [optionalHeader, List.map_cons, List.map_nil, List.sum_cons, List.sum_nil,
      Function.comp_apply, HeaderText.width, tidy, length_headerValue, Option.getD_some]
    omega

/-- The texts that go into the core metadata. -/
def extent (m : CoreMetadata) : Nat :=
  m.name.length + m.version.length + (m.summary.getD "").length + (m.homePage.getD "").length +
    (m.author.getD "").length + (m.license.getD "").length + (m.longDescription.getD "").length

theorem length_endingInLine_le (s : String) : (endingInLine s).length ≤ s.length + 1 := by
  unfold endingInLine
  split
  · exact Nat.le_succ _
  · rw [String.length_append]
    exact Nat.le_refl _

theorem sum_headers_le (m : CoreMetadata) :
    (m.headerText.headers.map HeaderText.width).sum ≤
      m.name.length + m.version.length + (m.summary.getD "").length + (m.homePage.getD "").length +
        (m.author.getD "").length + (m.license.getD "").length + 250 := by
  have hf : ([("Metadata-Version", "2.1"), ("Name", m.name), ("Version", m.version)].map
      (HeaderText.width ∘ tidy)).sum = 39 + m.name.length + m.version.length := by
    have h₁ : "Metadata-Version".length + "2.1".length = 19 := rfl
    have h₂ : "Name".length = 4 := rfl
    have h₃ : "Version".length = 7 := rfl
    simp only [List.map_cons, List.map_nil, List.sum_cons, List.sum_nil, Function.comp_apply,
      HeaderText.width, tidy, length_headerValue]
    omega
  have hs := sum_optionalHeader_le "Summary" m.summary (by decide)
  have hh := sum_optionalHeader_le "Home-page" m.homePage (by decide)
  have ha := sum_optionalHeader_le "Author" m.author (by decide)
  have hl := sum_optionalHeader_le "License" m.license (by decide)
  have ht := sum_optionalHeader_le "Description-Content-Type"
    (m.longDescription.map fun _ => "text/markdown") (by decide)
  have hd : ((m.longDescription.map fun _ => "text/markdown").getD "").length ≤ 13 := by
    cases m.longDescription with
    | none => exact Nat.zero_le _
    | some _ =>
      show "text/markdown".length ≤ 13
      decide
  simp only [headerText, headers, List.map_append, List.map_map, List.sum_append]
  omega

theorem length_render_le (m : CoreMetadata) : m.render.length ≤ m.extent + 252 := by
  have hr := m.headerText.length_render_le
  have hh := m.sum_headers_le
  have hb : (m.headerText.body.getD "").length ≤ (m.longDescription.getD "").length + 1 := by
    simp only [headerText]
    cases m.longDescription with
    | none => exact Nat.zero_le _
    | some text => exact length_endingInLine_le text
  unfold render extent
  omega

end CoreMetadata

theorem length_wheelDescriptor_le (platform : PlatformTag) :
    (wheelDescriptor platform).length ≤ platform.text.length + 100 := by
  have hr := (wheelHeaders platform).length_render_le
  have hs : ((wheelHeaders platform).headers.map HeaderText.width).sum =
      platform.text.length + 87 := by
    have h₁ : "Wheel-Version".length + "1.0".length = 16 := rfl
    have h₂ : "Generator".length + "bin-to-wheel 0.1.0".length = 27 := rfl
    have h₃ : "Root-Is-Purelib".length + "false".length = 20 := rfl
    have h₄ : "Tag".length + "py3-none-".length = 12 := rfl
    simp only [wheelHeaders, PlatformTag.triple, List.map_cons, List.map_nil, List.sum_cons,
      List.sum_nil, HeaderText.width, String.length_append]
    omega
  have hb : ((wheelHeaders platform).body.getD "").length = 0 := rfl
  unfold wheelDescriptor
  omega

theorem length_entryPoints (command module : String) :
    (entryPoints command module).length = command.length + module.length + 27 := by
  have hs : "console_scripts".length = 15 := rfl
  have hm : ":main".length = 5 := rfl
  simp only [entryPoints, SettingLine.render, SettingLine.chars, List.flatMap_cons,
    List.flatMap_nil, String.length_ofList, List.length_append, List.length_cons, List.length_nil,
    String.length_toList, String.length_append]
  omega

/-! ## Packed contents -/

namespace Zip

/-- Packed, no content takes much more room than by itself. -/
def Codec.IsFrugal (codec : Codec) : Prop :=
  ∀ content, (codec.pack content).length ≤ 2 * content.length + 1000

/-- However a content is cut into blocks, these take little room. -/
theorem isFrugal_stored : stored.IsFrugal := by
  intro content
  have h : (stored.pack content).length =
    content.length + 5 * ((content.length - 1) / 65535 + 1) := Deflate.length_deflate content
  omega

end Zip

/-! ## The manifest -/

namespace Csv

theorem length_field_le (value : String) : (field value).length ≤ 2 * value.length + 2 := by
  have hq : (value.toList.flatMap doubleQuote).length ≤ 2 * value.toList.length := by
    apply length_flatMap_le value.toList
    intro c
    unfold doubleQuote
    split_ifs <;> exact Nat.le_of_ble_eq_true rfl
  rw [String.length_toList] at hq
  unfold field
  split
  · rw [List.length_append, List.length_cons, List.length_singleton]
    omega
  · rw [String.length_toList]
    omega

theorem length_fields_le (values : List String) :
    (fields values).length ≤ (values.map fun value => 2 * value.length + 3).sum := by
  induction values with
  | nil => exact Nat.zero_le _
  | cons value values ih =>
    have hf := length_field_le value
    cases values with
    | nil =>
      simp only [fields, List.map_cons, List.map_nil, List.sum_cons, List.sum_nil]
      omega
    | cons v vs =>
      rw [List.map_cons, List.sum_cons, fields, List.length_append, List.length_cons]
      · omega
      · exact List.cons_ne_nil v vs

theorem length_table_le {k : Nat} (values : List (List String))
    (h : ∀ row ∈ values, (fields row).length < k) : (table values).length ≤ k * values.length := by
  rw [table, String.length_ofList]
  induction values with
  | nil => exact Nat.zero_le _
  | cons row values ih =>
    have hr := h row List.mem_cons_self
    have hv := ih fun v hv => h v (List.mem_cons_of_mem _ hv)
    rw [rows, List.length_append, List.length_cons, List.length_cons, Nat.mul_succ]
    omega

end Csv

theorem length_fields_member_lt {member : Member} {k : Nat} (hp : member.path.length ≤ k)
    (hc : member.content.length < 10 ^ 10) :
    (Csv.fields member.fields).length < 2 * k + 150 := by
  have hf := Csv.length_fields_le member.fields
  have hd := length_recordDigest member.content
  have hr := Nat.repr_length member.content.length 10 (by decide) hc
  have hs : "sha256=".length = 7 := rfl
  rw [recordDigest] at hd
  simp only [Member.fields, List.map_cons, List.map_nil, List.sum_cons, List.sum_nil,
    String.length_append] at hf ⊢
  omega

/-- A manifest has a line of bounded length for each member. -/
theorem length_renderRecord_le {members : List Member} {recordPath : String} {k : Nat}
    (hm : ∀ member ∈ members, member.path.length ≤ k ∧ member.content.length < 10 ^ 10)
    (hp : recordPath.length ≤ k) :
    (renderRecord members recordPath).length ≤ (2 * k + 150) * (members.length + 1) := by
  have ht : (renderRecord members recordPath).length ≤
      (2 * k + 150) * (manifestRows members recordPath).length := by
    rw [renderRecord_eq_table]
    apply Csv.length_table_le _
    intro row hrow
    rcases List.mem_append.1 hrow with hrow | hrow
    · obtain ⟨member, hmem, rfl⟩ := List.mem_map.1 hrow
      obtain ⟨hpath, hlength⟩ := hm member (List.mem_filter.1 hmem).1
      exact length_fields_member_lt hpath hlength
    · rw [List.mem_singleton.1 hrow]
      have hf := Csv.length_fields_le [recordPath, "", ""]
      have he : "".length = 0 := rfl
      simp only [List.map_cons, List.map_nil, List.sum_cons, List.sum_nil] at hf ⊢
      omega
  refine ht.trans (Nat.mul_le_mul_left _ ?_)
  rw [manifestRows, List.length_append, List.length_map, List.length_singleton]
  exact Nat.succ_le_succ (List.length_filter_le ..)

/-! ## The layout -/

namespace BuildRequest

variable {r : BuildRequest} {binaryName : String} {payload : Bytes}

/-- The texts that go into a wheel. -/
def extent (r : BuildRequest) (binaryName : String) : Nat :=
  r.metadata.extent + binaryName.length + r.platform.text.length + (r.entryPoint.getD "").length

theorem length_module_le (r : BuildRequest) (binaryName : String) :
    r.module.length + 2 * r.version.length + 2 * binaryName.length ≤ 2 * r.extent binaryName := by
  have h := length_normalize_le r.name
  unfold module extent CoreMetadata.extent metadata
  dsimp only
  omega

theorem length_distInfo (r : BuildRequest) :
    r.distInfo.length = r.module.length + r.version.length + 11 := by
  have h₁ : "-".length = 1 := rfl
  have h₂ : ".dist-info".length = 10 := rfl
  simp only [distInfo, Wheelwright.distInfo, String.length_append]
  omega

theorem length_path_le_of_mem_listed {member : Member} (h : member ∈ r.listed binaryName payload) :
    member.path.length ≤ 2 * r.extent binaryName + 30 := by
  have hm := r.length_module_le binaryName
  have hd := r.length_distInfo
  have h₁ : "/__init__.py".length = 12 := rfl
  have h₂ : "/__main__.py".length = 12 := rfl
  have h₃ : "/bin/".length = 5 := rfl
  have h₄ : "/METADATA".length = 9 := rfl
  have h₅ : "/WHEEL".length = 6 := rfl
  have h₆ : "/entry_points.txt".length = 17 := rfl
  rcases List.mem_append.1 h with h | h
  · simp only [List.mem_cons, List.not_mem_nil, or_false] at h
    rcases h with rfl | rfl | rfl | rfl | rfl <;>
      (simp only [Member.ofText, String.length_append]; omega)
  · split at h
    · rw [List.mem_singleton.1 h]
      simp only [Member.ofText, String.length_append]
      omega
    · cases h

/-- Every listed member but the program is bounded by the texts that go into a wheel. -/
theorem length_content_le_of_mem_listed {member : Member}
    (h : member ∈ r.listed binaryName payload) :
    member.content = payload ∨ member.content.length ≤ 8 * r.extent binaryName + 5000 := by
  have hm := r.length_module_le binaryName
  have ho : ∀ path text : String, text.length ≤ 2 * r.extent binaryName + 1200 →
      (Member.ofText path text).content.length ≤ 8 * r.extent binaryName + 5000 := by
    intro path text ht
    have he := Utf8.length_encode_le text
    show (Utf8.encode text).length ≤ _
    omega
  rcases List.mem_append.1 h with h | h
  · simp only [List.mem_cons, List.not_mem_nil, or_false] at h
    rcases h with rfl | rfl | rfl | rfl | rfl
    · have hi := Launcher.length_initModule_le r.version binaryName
      have hv := Literal.length_write_le r.version
      have hb := Literal.length_write_le binaryName
      exact .inr (ho _ _ (by omega))
    · have hi := Launcher.length_mainModule_le
      exact .inr (ho _ _ (by omega))
    · exact .inl rfl
    · have hr := r.metadata.length_render_le
      have he : r.metadata.extent ≤ r.extent binaryName := by unfold extent; omega
      exact .inr (ho _ _ (by omega))
    · have hw := length_wheelDescriptor_le r.platform
      have he : r.platform.text.length ≤ r.extent binaryName := by unfold extent; omega
      exact .inr (ho _ _ (by omega))
  · split at h
    · next command hc =>
      rw [List.mem_singleton.1 h]
      have hp := length_entryPoints command r.module
      have he : command.length + r.name.length ≤ r.extent binaryName := by
        unfold extent CoreMetadata.extent metadata
        rw [hc, Option.getD_some]
        dsimp only
        omega
      have hn : r.module.length ≤ 2 * r.name.length := length_normalize_le r.name
      exact .inr (ho _ _ (by omega))
    · cases h

theorem length_listed_le : (r.listed binaryName payload).length ≤ 6 := by
  unfold listed
  cases r.entryPoint with
  | none => exact Nat.le_succ 5
  | some command => exact Nat.le_refl 6

/-- The manifest of a wheel with texts of ordinary length is small. -/
theorem length_record_le (hr : r.extent binaryName ≤ 10000000)
    (hl : ∀ member ∈ r.listed binaryName payload, member.content.length < 10 ^ 10) :
    (renderRecord (r.listed binaryName payload) (r.distInfo ++ "/RECORD")).length ≤ 300000000 := by
  have hp : (r.distInfo ++ "/RECORD").length ≤ 2 * r.extent binaryName + 30 := by
    have hd := r.length_distInfo
    have hm := r.length_module_le binaryName
    have h : "/RECORD".length = 7 := rfl
    rw [String.length_append]
    omega
  calc (renderRecord (r.listed binaryName payload) (r.distInfo ++ "/RECORD")).length
      ≤ (2 * (2 * r.extent binaryName + 30) + 150) *
          ((r.listed binaryName payload).length + 1) :=
        length_renderRecord_le (fun m hm => ⟨length_path_le_of_mem_listed hm, hl m hm⟩) hp
    _ ≤ 40000210 * 7 := Nat.mul_le_mul (by omega) (Nat.succ_le_succ length_listed_le)
    _ ≤ 300000000 := by decide

/-- With texts of ordinary length and a frugal codec, only the program can be too large for an
archive. -/
theorem length_le_of_mem_plan {codec : Zip.Codec} (hc : codec.IsFrugal)
    (hr : r.extent binaryName ≤ 10000000) (hp : payload.length ≤ Zip.largestMember)
    (hpack : (codec.pack payload).length ≤ Zip.largestMember) {member : Member}
    (h : member ∈ (r.plan binaryName payload).members) :
    member.content.length ≤ Zip.largestMember ∧
      (codec.pack member.content).length ≤ Zip.largestMember := by
  have hz : Zip.largestMember = 4294967295 := rfl
  have hsmall : ∀ content : Bytes, content.length ≤ 2000000000 →
      content.length ≤ Zip.largestMember ∧ (codec.pack content).length ≤ Zip.largestMember := by
    intro content hl
    have hf := hc content
    omega
  have hl : ∀ m ∈ r.listed binaryName payload,
      m.content.length ≤ Zip.largestMember ∧
        (codec.pack m.content).length ≤ Zip.largestMember := by
    intro m hm
    rcases length_content_le_of_mem_listed hm with hm | hm
    · rw [hm]
      exact ⟨hp, hpack⟩
    · exact hsmall m.content (by omega)
  rcases List.mem_append.1 h with h | h
  · exact hl member h
  · have ht : (renderRecord (r.listed binaryName payload) (r.distInfo ++ "/RECORD")).length ≤
        300000000 := by
      apply length_record_le hr
      intro m hm
      have hlength := (hl m hm).1
      omega
    have he := Utf8.length_encode_le
      (renderRecord (r.listed binaryName payload) (r.distInfo ++ "/RECORD"))
    apply hsmall
    rw [List.mem_singleton.1 h]
    unfold Member.ofText
    dsimp only
    omega

end BuildRequest

end Wheelwright
