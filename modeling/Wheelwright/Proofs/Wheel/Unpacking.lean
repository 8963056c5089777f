import Wheelwright.Proofs.Archive.RoundTrip
import Wheelwright.Proofs.Build.Delivery
import Wheelwright.Proofs.Text.Utf8
import Wheelwright.Proofs.Wheel.Identity
/-!
# A wheel unpacked

The archive of a layout that was packed is opened again, however large the program in it is. A
reader finds the names of the members in order, and under their names the manifest and the wheel's
own descriptor, which are small unless the codec wastes room. The main statement is
`BuildRequest.Packed.unpacks`: the names are those of the layout and those of the manifest's rows,
and the descriptor has the platform's tag.
-/

namespace Wheelwright

/-- What a reader finds in the archive of a wheel with its descriptors in a directory. -/
structure Zip.Unpacks (codec : Codec) (archive : Bytes) (distInfo tag : String)
    (entries : List String) : Prop where
  /-- The members' names in the order of the archive's directory. -/
  names : Zip.names? archive = some entries
  /-- The manifest stored in the archive has a row for every member, in that order. -/
  manifest : ∃ entry text rows, Zip.find? codec archive (distInfo ++ "/RECORD") = some entry ∧
    Utf8.decode? entry.content = some text ∧ Csv.read? text = some rows ∧
    rows.map List.head? = entries.map some
  /-- The wheel's own descriptor has one tag. -/
  descriptor : ∃ entry text t, Zip.find? codec archive (distInfo ++ "/WHEEL") = some entry ∧
    Utf8.decode? entry.content = some text ∧ HeaderText.read? text = some t ∧
    t.values "Tag" = ["py3-none-" ++ tag]

namespace BuildRequest

variable {r : BuildRequest} {binaryName : String} {payload : Bytes} {epoch : Option Int}
  {codec : Zip.Codec} {archive : Bytes}

/-- The texts that name a wheel are in its name. -/
theorem length_encode_filename (r : BuildRequest) : (Utf8.encode r.filename).length =
    (Utf8.encode r.module).length + (Utf8.encode r.version).length +
      (Utf8.encode r.platform.text).length + 15 := by
  have h₁ : (Utf8.encode "-").length = 1 := rfl
  have h₂ : (Utf8.encode "py3-none-").length = 9 := rfl
  have h₃ : (Utf8.encode ".whl").length = 4 := rfl
  simp only [filename, wheelFilename, PlatformTag.triple, Utf8.encode_append, List.length_append]
  omega

/-- A member's path is little longer than the wheel's name or the program's. -/
theorem length_encode_path_le {path : String} (h : path ∈ (r.plan binaryName payload).entries) :
    (Utf8.encode path).length ≤
      (Utf8.encode r.filename).length + (Utf8.encode binaryName).length + 20 := by
  have hf := r.length_encode_filename
  have h₁ : (Utf8.encode "/__init__.py").length = 12 := rfl
  have h₂ : (Utf8.encode "/__main__.py").length = 12 := rfl
  have h₃ : (Utf8.encode "/bin/").length = 5 := rfl
  have h₄ : (Utf8.encode "-").length = 1 := rfl
  have h₅ : (Utf8.encode ".dist-info").length = 10 := rfl
  have h₆ : ∀ name ∈ r.infoNames, (Utf8.encode name).length ≤ 17 := by
    unfold infoNames
    cases r.entryPoint.isSome <;> decide
  rw [entries_eq] at h
  obtain ⟨suffix, hs, rfl⟩ := List.mem_map.1 h
  rw [Utf8.encode_append, List.length_append]
  rcases List.mem_append.1 hs with hs | hs
  · simp only [packageSuffixes, List.mem_cons, List.not_mem_nil, or_false] at hs
    rcases hs with rfl | rfl | rfl
    · omega
    · omega
    · rw [Utf8.encode_append, List.length_append]
      omega
  · obtain ⟨name, hname, rfl⟩ := List.mem_map.1 hs
    have hn := h₆ name hname
    simp only [infoSuffix, Utf8.encode_append, List.length_append]
    omega

/-- A layout that was packed, with names short enough for a disk. -/
structure Packed (r : BuildRequest) (binaryName : String) (payload : Bytes) (epoch : Option Int)
    (codec : Zip.Codec) (archive : Bytes) : Prop where
  filename_le : (Utf8.encode r.filename).length ≤ Disk.longestPath
  program_le : (Utf8.encode binaryName).length ≤ Disk.longestPath
  archive_ok : (r.plan binaryName payload).archiveWith codec epoch = .ok archive

namespace Packed

theorem archive_eq (h : r.Packed binaryName payload epoch codec archive) :
    archive = Zip.writeWith codec (Stamp.ofSetting epoch) (r.plan binaryName payload).members :=
  (Plan.archiveWith_eq_ok_iff.1 h.archive_ok).2

theorem storable (h : r.Packed binaryName payload epoch codec archive) :
    ∀ m ∈ (r.plan binaryName payload).members, Zip.Storable codec m := by
  intro m hm
  obtain ⟨hc, hp⟩ := (Plan.archiveWith_eq_ok_iff.1 h.archive_ok).1 m hm
  have hpath := length_encode_path_le (r := r) (List.mem_map_of_mem (f := Member.path) hm)
  have hf := h.filename_le
  have hb := h.program_le
  have hl : Disk.longestPath = 4095 := rfl
  exact ⟨by omega, Nat.lt_succ_of_le hc, Nat.lt_succ_of_le hp⟩

end Packed

theorem length_members_le (r : BuildRequest) (binaryName : String) (payload : Bytes) :
    (r.plan binaryName payload).members.length ≤ 7 := by
  have h : (r.listed binaryName payload).length ≤ 6 := length_listed_le
  rw [members_plan, List.length_append, List.length_singleton]
  exact Nat.succ_le_succ h

/-- A layout that was packed is measured by 64 bits. -/
theorem Packed.length_lt (h : r.Packed binaryName payload epoch codec archive) :
    archive.length < 18446744073709551616 := by
  have hk := r.length_members_le binaryName payload
  rw [h.archive_eq]
  exact Zip.length_writeWith_lt h.storable (by omega) _

theorem mem_members_record (r : BuildRequest) (binaryName : String) (payload : Bytes) :
    Member.ofText r.recordPath (r.recordText binaryName payload) ∈
      (r.plan binaryName payload).members := by
  rw [members_plan]
  exact List.mem_append_right _ (List.mem_singleton_self _)

/-- The manifest's name does not end like a locator. -/
theorem dot_cons_isSuffix_recordPath (r : BuildRequest) :
    0x2E :: Utf8.encode "dist-info/RECORD" <:+ Utf8.encode r.recordPath := by
  have h : r.recordPath = r.module ++ "-" ++ r.version ++ ".dist-info/RECORD" := by
    have hd : ".dist-info/RECORD" = ".dist-info" ++ "/RECORD" := rfl
    rw [hd, recordPath, distInfo, Wheelwright.distInfo]
    simp only [String.append_assoc]
  rw [h, Utf8.encode_append]
  exact List.suffix_append _ _

theorem Packed.records?_eq (h : r.Packed binaryName payload epoch codec archive) :
    Zip.records? archive = some ((Zip.headers codec (Stamp.ofSetting epoch) 0
      (r.plan binaryName payload).members).map Zip.Header.directoryRecord) := by
  rw [h.archive_eq]
  have hk := r.length_members_le binaryName payload
  apply Zip.records?_writeWith (Stamp.isValid_ofSetting epoch) h.storable (by omega)
  intro hw _
  rw [members_plan] at hw ⊢
  have hb := Zip.isSuffix_bulk hw
  have hl : (Utf8.encode "dist-info/RECORD").length = 16 := by decide +kernel
  exact Zip.locator?_eq_none (r.dot_cons_isSuffix_recordPath.trans hb) hl (by decide)

namespace Packed

/-- The names of the members of the archive are those of the layout. -/
theorem names?_eq (h : r.Packed binaryName payload epoch codec archive) :
    Zip.names? archive = some (r.plan binaryName payload).entries :=
  Zip.names?_of_records? h.records?_eq

/-- A short text that was laid out is found under its path. -/
theorem exists_find? (h : r.Packed binaryName payload epoch codec archive) (hf : codec.IsFrugal)
    {path text : String}
    (hm : Member.ofText path text ∈ (r.plan binaryName payload).members)
    (ht : text.length ≤ 100000000) :
    ∃ entry, Zip.find? codec archive path = some entry ∧
      Utf8.decode? entry.content = some text := by
  have hk := r.length_members_le binaryName payload
  have hc := Utf8.length_encode_le text
  have hp := hf (Utf8.encode text)
  have hz : Zip.most32 = 4294967295 := rfl
  have hr := h.records?_eq
  rw [h.archive_eq] at hr
  refine ⟨Zip.Entry.ofMember (Stamp.ofSetting epoch) (.ofText path text), ?_,
    Utf8.decode?_encode text⟩
  rw [h.archive_eq]
  have hcontent : (Member.ofText path text).content = Utf8.encode text := rfl
  have hfind := Zip.find?_of_records? (m := .ofText path text) (Stamp.isValid_ofSetting epoch)
    h.storable (by omega) (r.nodup_entries binaryName payload) hm (by rw [hcontent]; omega)
    (by rw [hcontent]; omega) hr
  exact hfind

theorem length_recordText_le (h : r.Packed binaryName payload epoch codec archive) :
    (r.recordText binaryName payload).length ≤ 100000000 := by
  have hpath : ∀ m ∈ (r.plan binaryName payload).members, m.path.length ≤ 65535 := by
    intro m hm
    have hs := (h.storable m hm).path
    have hl := Utf8.length_le_length_encode m.path
    omega
  have hrecord := hpath _ (r.mem_members_record binaryName payload)
  rw [members_plan] at hpath
  have hrow : ∀ m ∈ r.listed binaryName payload,
      m.path.length ≤ 65535 ∧ m.content.length < 10 ^ 10 := by
    intro m hm
    have hc := (h.storable m (by rw [members_plan]; exact List.mem_append_left _ hm)).content
    exact ⟨hpath m (List.mem_append_left _ hm), by omega⟩
  calc (r.recordText binaryName payload).length
      ≤ (2 * 65535 + 150) * ((r.listed binaryName payload).length + 1) :=
        length_renderRecord_le (k := 65535) hrow hrecord
    _ ≤ (2 * 65535 + 150) * 7 := Nat.mul_le_mul_left _ (Nat.succ_le_succ length_listed_le)
    _ ≤ 100000000 := by decide

/-- The manifest in the archive has a row for every member, in order. -/
theorem exists_manifest (h : r.Packed binaryName payload epoch codec archive)
    (hc : codec.IsFrugal) :
    ∃ entry text rows, Zip.find? codec archive (r.distInfo ++ "/RECORD") = some entry ∧
      Utf8.decode? entry.content = some text ∧ Csv.read? text = some rows ∧
      rows.map List.head? = (r.plan binaryName payload).entries.map some := by
  obtain ⟨entry, hf, hd⟩ :=
    h.exists_find? hc (r.mem_members_record binaryName payload) h.length_recordText_le
  have hr : Csv.read? (r.recordText binaryName payload) =
      some ((r.listed binaryName payload).map Member.fields ++ [[r.recordPath, "", ""]]) :=
    read?_renderRecord fun member => r.path_ne_recordPath binaryName payload
  refine ⟨entry, _, _, hf, hd, hr, ?_⟩
  rw [Plan.entries, members_plan]
  simp only [List.map_append, List.map_map, List.map_cons, List.map_nil]
  rfl

/-- The wheel's own descriptor in the archive has one tag, that of the platform. -/
theorem exists_descriptor (h : r.Packed binaryName payload epoch codec archive)
    (hc : codec.IsFrugal) (hn : '\n' ∉ r.platform.text.toList) :
    ∃ entry text t, Zip.find? codec archive (r.distInfo ++ "/WHEEL") = some entry ∧
      Utf8.decode? entry.content = some text ∧ HeaderText.read? text = some t ∧
      t.values "Tag" = ["py3-none-" ++ r.platform.text] := by
  have hl := length_wheelDescriptor_le r.platform
  have hp := Utf8.length_le_length_encode r.platform.text
  have hw := r.length_encode_filename
  have hf := h.filename_le
  have hz : Disk.longestPath = 4095 := rfl
  obtain ⟨entry, hf, hd⟩ :=
    h.exists_find? hc (r.mem_members_wheel binaryName payload) (by omega)
  exact ⟨entry, _, wheelHeaders r.platform, hf, hd, HeaderText.read?_render _
    (isTidy_wheelHeaders (PlatformTag.not_mem_triple hn (by decide))), rfl⟩

/-- The archive unpacks to the layout that was packed. -/
theorem unpacks (h : r.Packed binaryName payload epoch codec archive) (hc : codec.IsFrugal)
    (hn : '\n' ∉ r.platform.text.toList) :
    Zip.Unpacks codec archive r.distInfo r.platform.text (r.plan binaryName payload).entries :=
  ⟨h.names?_eq, h.exists_manifest hc, h.exists_descriptor hc hn⟩

end Packed
end BuildRequest

end Wheelwright
