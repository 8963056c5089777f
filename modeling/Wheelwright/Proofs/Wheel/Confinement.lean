import Wheelwright.Proofs.Build.Effect
import Wheelwright.Proofs.Disk.Join
import Wheelwright.Proofs.Wheel.Identity
/-!
# Two directories

The members of a layout stand in the package's directory and in that of the descriptors, and nowhere
else, if these are names and not ways: a name has no slash, is not empty and is neither `.` nor
`..`. A normalized name has no dots, and the name of the other directory has a dash, so that only
the slash and the empty name are left to exclude; the program's own name was the last name of a
path. The main statement is `confined_iff`.
-/

namespace Wheelwright

/-! ## Parts of paths -/

/-- The name of something in the directory before it. -/
def IsPlainPart (part : List Char) : Prop := part ≠ [] ∧ part ≠ ['.'] ∧ part ≠ ['.', '.']

instance (part : List Char) : Decidable (IsPlainPart part) := inferInstanceAs (Decidable (_ ∧ _))

/-- A part with something else than dots. -/
theorem isPlainPart_of_mem {part : List Char} {c : Char} (h : c ∈ part) (hc : c ≠ '.') :
    IsPlainPart part := by
  refine ⟨List.ne_nil_of_mem h, ?_, ?_⟩
  · rintro rfl
    exact hc (List.mem_singleton.1 h)
  · rintro rfl
    exact hc (by simpa using h)

/-- The name that a program is stored under is the name of something. -/
theorem Build.isPlainPart_binaryName {binary : Path} {name : String}
    (h : binaryName binary = .ok name) : '/' ∉ name.toList ∧ IsPlainPart name.toList := by
  obtain ⟨bytes, hf, hd⟩ := binaryName_eq_ok_iff.1 h
  obtain ⟨hn, hdot, hdotDot⟩ := Path.mem_names_of_fileName? hf
  obtain ⟨hp, hne⟩ := List.mem_filter.1 hn
  have he : Utf8.encode name = bytes := Utf8.decode?_eq_some_iff.1 hd
  have hs : ∀ cs, name.toList = cs → Utf8.encode (String.ofList cs) = bytes := by
    rintro cs rfl
    rw [String.ofList_toList, he]
  refine ⟨?_, ?_, ?_, ?_⟩
  · rw [← Path.slash_mem_ofString, Path.bytes_ofString, he]
    exact Split.not_mem_of_mem_pieces hp
  · intro hc
    rw [← hs _ hc] at hne
    exact absurd hne (by decide)
  · intro hc
    exact hdot (hs _ hc).symm
  · intro hc
    exact hdotDot (hs _ hc).symm

/-- A directory and a name in it are two parts. -/
theorem pieces_slash {dir file : String} (hd : '/' ∉ dir.toList) (hf : '/' ∉ file.toList) :
    Split.pieces '/' (dir ++ "/" ++ file).toList = [dir.toList, file.toList] := by
  have hc : (dir ++ "/" ++ file).toList = dir.toList ++ '/' :: file.toList := by
    simp
  rw [hc, Split.pieces_append_cons hd, Split.pieces_of_not_mem hf]

/-- Before a slash at the beginning stands an empty part. -/
theorem relative_of_isPlainPart {path : String}
    (h : ∀ part ∈ Split.pieces '/' path.toList, IsPlainPart part) :
    (Path.ofString path).isAbsolute = false := by
  apply Bool.eq_false_iff.2
  intro ha
  obtain ⟨rest, hr⟩ := List.head?_eq_some_iff.1 ((Path.isAbsolute_ofString path).1 ha)
  rw [hr] at h
  exact (h [] (by simp [Split.pieces])).1 rfl

/-- A layout whose members stand in two directories: the program two names below the package's, and
the others directly in one of the two. -/
structure Plan.Confined (plan : Plan) (module binaryName : String) : Prop where
  relative : ∀ path ∈ plan.entries, (Path.ofString path).isAbsolute = false
  /-- No part of a path is empty, and none leads to where it stands or up. -/
  plain : ∀ path ∈ plan.entries, ∀ part ∈ Split.pieces '/' path.toList, IsPlainPart part
  program : plan.binaryPath ∈ plan.entries ∧
    Split.pieces '/' plan.binaryPath.toList = [module.toList, "bin".toList, binaryName.toList]
  others : ∀ path ∈ plan.entries, path ≠ plan.binaryPath → ∃ file,
    Split.pieces '/' path.toList = [module.toList, file] ∨
      Split.pieces '/' path.toList = [plan.distInfo.toList, file]

namespace BuildRequest

variable (r : BuildRequest) (binaryName : String) (payload : Bytes)

/-- What the files of a layout other than the program are called. -/
def fileNames : List String :=
  ["__init__.py", "__main__.py", "METADATA", "WHEEL", "entry_points.txt", "RECORD"]

theorem exists_file_of_mem_infoNames {name : String} (h : name ∈ r.infoNames) :
    ∃ file ∈ fileNames, name = "/" ++ file := by
  revert name
  unfold infoNames
  cases r.entryPoint.isSome with
  | true => decide
  | false => decide

/-- Every member but the program is one of these files in one of the two directories. -/
theorem exists_file_of_mem_entries {path : String}
    (h : path ∈ (r.plan binaryName payload).entries)
    (hne : path ≠ (r.plan binaryName payload).binaryPath) :
    ∃ dir, (dir = r.module ∨ dir = r.distInfo) ∧ ∃ file ∈ fileNames, path = dir ++ "/" ++ file := by
  rw [entries_eq] at h
  obtain ⟨suffix, hs, rfl⟩ := List.mem_map.1 h
  rcases List.mem_append.1 hs with hs | hs
  · simp only [packageSuffixes, List.mem_cons, List.not_mem_nil, or_false] at hs
    rcases hs with rfl | rfl | rfl
    · exact ⟨_, .inl rfl, "__init__.py", by decide, by rw [String.append_assoc]; rfl⟩
    · exact ⟨_, .inl rfl, "__main__.py", by decide, by rw [String.append_assoc]; rfl⟩
    · exact absurd (String.append_assoc ..).symm hne
  · obtain ⟨info, hi, rfl⟩ := List.mem_map.1 hs
    obtain ⟨file, hm, rfl⟩ := r.exists_file_of_mem_infoNames hi
    refine ⟨_, .inr rfl, file, hm, ?_⟩
    rw [distInfo_eq, String.append_assoc, String.append_assoc]

theorem slash_mem_distInfo_iff :
    '/' ∈ r.distInfo.toList ↔ '/' ∈ r.name.toList ∨ '/' ∈ r.version.toList := by
  have hn := mem_normalize_iff (a := '/') (by decide) (by decide) (by decide) r.name
  have h₁ : '/' ∉ "-".toList := by decide
  have h₂ : '/' ∉ ".dist-info".toList := by decide
  simp only [distInfo, Wheelwright.distInfo, module, String.toList_append, List.mem_append, hn, h₁,
    h₂, or_false]

theorem pieces_binaryPath (hm : '/' ∉ r.module.toList) (hn : '/' ∉ binaryName.toList) :
    Split.pieces '/' (r.plan binaryName payload).binaryPath.toList =
      [r.module.toList, "bin".toList, binaryName.toList] := by
  have hb : (r.plan binaryName payload).binaryPath.toList =
      r.module.toList ++ '/' :: ("bin".toList ++ '/' :: binaryName.toList) := by
    simp [plan]
  rw [hb, Split.pieces_append_cons hm, Split.pieces_append_cons (by decide),
    Split.pieces_of_not_mem hn]

/-- The program is a member. -/
theorem binaryPath_mem_entries :
    (r.plan binaryName payload).binaryPath ∈ (r.plan binaryName payload).entries := by
  simp [plan, Plan.entries, listed]

/-- The metadata are not in the program's place: a dash follows the package's name there, and a
slash here. -/
theorem metadata_ne_binaryPath :
    r.distInfo ++ "/METADATA" ≠ (r.plan binaryName payload).binaryPath := by
  intro he
  have hb : (r.plan binaryName payload).binaryPath =
      r.module ++ ("/" ++ ("bin/" ++ binaryName)) := String.append_assoc ..
  rw [hb, distInfo_eq, String.append_assoc] at he
  exact r.slash_append_ne _ _ ((String.append_right_inj _).1 he).symm

/-! ## The directories -/

variable {r}

theorem isPlainPart_module (hn : r.name ≠ "") : IsPlainPart r.module.toList := by
  have hdot : '.' ∉ r.module.toList := not_mem_normalize (.inr rfl) r.name
  refine ⟨mt toList_normalize_eq_nil_iff.1 hn, ?_, ?_⟩
  · intro he
    exact hdot (by simp [he])
  · intro he
    exact hdot (by simp [he])

theorem isPlainPart_distInfo : IsPlainPart r.distInfo.toList := by
  refine isPlainPart_of_mem (c := '-') ?_ (by decide)
  simp [distInfo, Wheelwright.distInfo]

variable {binaryName payload}

/-- In directories without a slash every member but the program is named by two parts. -/
theorem exists_pieces (hm : '/' ∉ r.module.toList) (hd : '/' ∉ r.distInfo.toList) {path : String}
    (hmem : path ∈ (r.plan binaryName payload).entries)
    (hne : path ≠ (r.plan binaryName payload).binaryPath) :
    ∃ dir file : String, (dir = r.module ∨ dir = r.distInfo) ∧ IsPlainPart file.toList ∧
      Split.pieces '/' path.toList = [dir.toList, file.toList] := by
  obtain ⟨dir, hdir, file, hfile, rfl⟩ := r.exists_file_of_mem_entries binaryName payload hmem hne
  have hplain : ∀ file ∈ fileNames, '/' ∉ file.toList ∧ IsPlainPart file.toList := by decide
  refine ⟨dir, file, hdir, (hplain file hfile).2, pieces_slash ?_ (hplain file hfile).1⟩
  rcases hdir with rfl | rfl
  · exact hm
  · exact hd

/-- If the members of a layout stand in two directories, the texts that name these are names. -/
theorem slash_not_mem_of_confined
    (h : (r.plan binaryName payload).Confined r.module binaryName) :
    r.name ≠ "" ∧ '/' ∉ r.name.toList ∧ '/' ∉ r.version.toList := by
  obtain ⟨hmem, hpieces⟩ := h.program
  have hmodule : r.module.toList ∈
      Split.pieces '/' (r.plan binaryName payload).binaryPath.toList := by
    rw [hpieces]
    exact List.mem_cons_self
  have hslash : '/' ∉ r.name.toList := by
    intro hs
    exact Split.not_mem_of_mem_pieces hmodule
      ((mem_normalize_iff (by decide) (by decide) (by decide) r.name).2 hs)
  refine ⟨?_, hslash, ?_⟩
  · intro he
    exact (h.plain _ hmem _ hmodule).1 (toList_normalize_eq_nil_iff.2 he)
  · -- two parts have one slash between them, and `METADATA` comes after one
    intro hs
    have hmeta : r.distInfo ++ "/METADATA" ∈ (r.plan binaryName payload).entries :=
      List.mem_map_of_mem (r.mem_members_metadata binaryName payload)
    obtain ⟨file, hf⟩ := h.others _ hmeta (r.metadata_ne_binaryPath binaryName payload)
    have hlen : (Split.pieces '/' (r.distInfo ++ "/METADATA").toList).length = 2 := by
      rcases hf with hf | hf
      · exact congrArg List.length hf
      · exact congrArg List.length hf
    have hcount : "/METADATA".toList.count '/' = 1 := by decide
    have hpos : 0 < r.distInfo.toList.count '/' :=
      List.count_pos_iff.2 (r.slash_mem_distInfo_iff.2 (.inr hs))
    rw [Split.length_pieces, String.toList_append, List.count_append, hcount] at hlen
    omega

/-- A name and a version without a slash lead nowhere else. -/
theorem confined_of_slash_not_mem (hname : r.name ≠ "") (hslash : '/' ∉ r.name.toList)
    (hversion : '/' ∉ r.version.toList) (hb : '/' ∉ binaryName.toList)
    (hbp : IsPlainPart binaryName.toList) :
    (r.plan binaryName payload).Confined r.module binaryName := by
  have hm : '/' ∉ r.module.toList :=
    mt (mem_normalize_iff (by decide) (by decide) (by decide) r.name).1 hslash
  have hd : '/' ∉ r.distInfo.toList :=
    mt r.slash_mem_distInfo_iff.1 (not_or.2 ⟨hslash, hversion⟩)
  have hprogram := r.pieces_binaryPath binaryName payload hm hb
  have hplain : ∀ path ∈ (r.plan binaryName payload).entries,
      ∀ part ∈ Split.pieces '/' path.toList, IsPlainPart part := by
    intro path hmem part hpart
    by_cases he : path = (r.plan binaryName payload).binaryPath
    · rw [he, hprogram] at hpart
      simp only [List.mem_cons, List.not_mem_nil, or_false] at hpart
      rcases hpart with rfl | rfl | rfl
      · exact isPlainPart_module hname
      · decide
      · exact hbp
    · obtain ⟨dir, file, hdir, hfile, hp⟩ := exists_pieces hm hd hmem he
      rw [hp] at hpart
      simp only [List.mem_cons, List.not_mem_nil, or_false] at hpart
      rcases hpart with rfl | rfl
      · rcases hdir with rfl | rfl
        · exact isPlainPart_module hname
        · exact isPlainPart_distInfo
      · exact hfile
  refine ⟨fun path hmem => relative_of_isPlainPart (hplain path hmem), hplain,
    ⟨r.binaryPath_mem_entries binaryName payload, hprogram⟩, fun path hmem hne => ?_⟩
  obtain ⟨dir, file, hdir, -, hp⟩ := exists_pieces hm hd hmem hne
  refine ⟨file.toList, ?_⟩
  rcases hdir with rfl | rfl
  · exact .inl hp
  · exact .inr hp

end BuildRequest

/-- The members of a layout stand in two directories exactly if the name is not empty and neither it
nor the version has a slash. -/
theorem confined_iff {binary : Path} {name : String} (h : Build.binaryName binary = .ok name)
    (r : BuildRequest) (payload : Bytes) :
    (r.plan name payload).Confined r.module name ↔
      r.name ≠ "" ∧ '/' ∉ r.name.toList ∧ '/' ∉ r.version.toList := by
  obtain ⟨hslash, hplain⟩ := Build.isPlainPart_binaryName h
  constructor
  · exact BuildRequest.slash_not_mem_of_confined
  · rintro ⟨hn, hs, hv⟩
    exact BuildRequest.confined_of_slash_not_mem hn hs hv hslash hplain

/-- A request in which every text is a way up. -/
def BuildRequest.dotted : BuildRequest where
  name := ".."
  version := ".."
  binary := .ofString "../t/./"
  platform := ⟨"win_amd64"⟩
  entryPoint := some ".."
  description := none
  author := none
  license := none
  url := none
  longDescription := none
  outputDir := .ofString ".."

/-- Its members stand in two directories all the same. -/
theorem confined_dotted : Build.binaryName BuildRequest.dotted.binary = .ok "t" ∧
    (BuildRequest.dotted.plan "t" []).Confined BuildRequest.dotted.module "t" := by
  have h : Build.binaryName BuildRequest.dotted.binary = .ok "t" :=
    Build.binaryName_eq_ok_iff.2 ⟨Utf8.encode "t", by decide +kernel, by decide +kernel⟩
  exact ⟨h, (confined_iff h BuildRequest.dotted []).2 (by decide)⟩

end Wheelwright
