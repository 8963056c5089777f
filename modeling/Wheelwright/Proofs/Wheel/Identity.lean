import Wheelwright.Proofs.Metadata
import Wheelwright.Proofs.Platform.Resolution
import Wheelwright.Proofs.Text.LowerCase
import Wheelwright.Proofs.Wheel.Manifest
/-!
# One identity

A layout says in several places which package, which version and which platform it is for: in the
core metadata, in the wheel's own descriptor, in the wheel's name and in every path. The main
statement is `identifies_of_resolve`: the places agree, whatever the texts of the request are, up to
the line ends, which become spaces in a header and stay in a path. A value cannot add to the headers
(`CoreMetadata.values_name`), and a platform's tag has neither a dash nor a line end, so that the
wheel's name can be cut at dashes from its end (`pieces_triple`).
-/

namespace Wheelwright

/-! ## Normalization and line ends -/

/-- Line ends become spaces before a character is normalized or after it. -/
theorem normalizeChar_headerChar (c : Char) :
    normalizeChar (CoreMetadata.headerChar c) = (normalizeChar c).map CoreMetadata.headerChar := by
  by_cases hr : c = '\r'
  · subst hr
    decide +kernel
  · by_cases hn : c = '\n'
    · subst hn
      decide +kernel
    · have hself : ∀ a ∈ normalizeChar c, CoreMetadata.headerChar a = a := by
        intro a ha
        apply CoreMetadata.headerChar_of_ne
        · rintro rfl
          exact hr ((mem_normalizeChar_iff (by decide) (by decide) (by decide)).1 ha).symm
        · rintro rfl
          exact hn ((mem_normalizeChar_iff (by decide) (by decide) (by decide)).1 ha).symm
      rw [CoreMetadata.headerChar_of_ne hr hn, List.map_congr_left hself, List.map_id']

theorem normalize_headerValue (name : String) :
    normalize (CoreMetadata.headerValue name) = CoreMetadata.headerValue (normalize name) := by
  apply String.toList_inj.1
  rw [toList_normalize, CoreMetadata.toList_headerValue, CoreMetadata.toList_headerValue,
    toList_normalize, List.flatMap_map, List.map_flatMap]
  exact congrArg (name.toList.flatMap ·) (funext normalizeChar_headerChar)

/-- A name in a header stands for the same package as the name itself exactly if it has no line
end. -/
theorem normalize_headerValue_eq_iff (name : String) :
    normalize (CoreMetadata.headerValue name) = normalize name ↔
      '\r' ∉ name.toList ∧ '\n' ∉ name.toList := by
  rw [normalize_headerValue, CoreMetadata.headerValue_eq_self_iff,
    mem_normalize_iff (by decide) (by decide) (by decide),
    mem_normalize_iff (by decide) (by decide) (by decide)]

/-! ## The compatibility triple -/

namespace PlatformTag

variable {tag : PlatformTag}

/-- A triple without more dashes than its own two has three parts. -/
theorem pieces_triple (h : '-' ∉ tag.text.toList) :
    Split.pieces '-' tag.triple.toList = ["py3".toList, "none".toList, tag.text.toList] := by
  have ht : tag.triple.toList =
      "py3".toList ++ '-' :: ("none".toList ++ '-' :: tag.text.toList) := by
    rw [triple, String.toList_append]
    rfl
  rw [ht, Split.pieces_append_cons (by decide), Split.pieces_append_cons (by decide),
    Split.pieces_of_not_mem h]

theorem not_mem_triple {c : Char} (h : c ∉ tag.text.toList) (hc : c ∉ "py3-none-".toList) :
    c ∉ tag.triple.toList := by
  rw [triple, String.toList_append, List.mem_append, not_or]
  exact ⟨hc, h⟩

end PlatformTag

/-! ## The wheel's own descriptor -/

/-- The descriptor up to its tag is always the same. -/
theorem toList_wheelDescriptor (platform : PlatformTag) :
    (wheelDescriptor platform).toList =
      ("Wheel-Version: 1.0\nGenerator: bin-to-wheel 0.1.0\nRoot-Is-Purelib: false\nTag: ".toList ++
        platform.triple.toList) ++ ['\n'] := by
  simp [wheelDescriptor, wheelHeaders, HeaderText.render, HeaderText.block, HeaderText.line]

theorem isTidy_wheelHeaders {platform : PlatformTag} (h : '\n' ∉ platform.triple.toList) :
    HeaderText.IsTidy (wheelHeaders platform).headers := by
  intro t ht
  simp only [wheelHeaders, List.mem_cons, List.not_mem_nil, or_false] at ht
  rcases ht with rfl | rfl | rfl | rfl
  · decide
  · decide
  · decide
  · have hname : ':' ∉ "Tag".toList ∧ '\n' ∉ "Tag".toList := by decide
    exact ⟨hname.1, hname.2, h⟩

/-- The descriptor's lines are its headers. -/
theorem pieces_wheelDescriptor {platform : PlatformTag} (h : '\n' ∉ platform.triple.toList) :
    Split.pieces '\n' (wheelDescriptor platform).toList =
      (wheelHeaders platform).headers.map HeaderText.line ++ [[]] := by
  rw [← HeaderText.pieces_block (isTidy_wheelHeaders h), wheelDescriptor, HeaderText.render,
    String.toList_ofList]
  exact congrArg _ (List.append_nil _)

/-! ## Members by path -/

/-- The text of the one member that a layout has at a path. -/
def Plan.text? (plan : Plan) (path : String) : Option String :=
  match plan.members.filter (·.path = path) with
  | [member] => Utf8.decode? member.content
  | _ => none

/-- Under a path of its own a member is found alone. -/
theorem filter_path_eq {members : List Member} (hn : (members.map Member.path).Nodup)
    {member : Member} (h : member ∈ members) :
    members.filter (fun other => decide (other.path = member.path)) = [member] := by
  induction members with
  | nil => cases h
  | cons first rest ih =>
    rw [List.map_cons, List.nodup_cons] at hn
    obtain ⟨hfirst, hrest⟩ := hn
    rcases List.mem_cons.1 h with rfl | h
    · have hr : rest.filter (fun other => decide (other.path = member.path)) = [] := by
        apply List.filter_eq_nil_iff.2
        intro other ho he
        rw [← of_decide_eq_true he] at hfirst
        exact hfirst (List.mem_map_of_mem ho)
      rw [List.filter_cons, if_pos (decide_eq_true rfl), hr]
    · have hne : first.path ≠ member.path := by
        intro he
        rw [he] at hfirst
        exact hfirst (List.mem_map_of_mem h)
      rw [List.filter_cons, if_neg (by simpa using hne), ih hrest h]

/-- A text that was laid out at a path is the text there. -/
theorem BuildRequest.text?_plan (r : BuildRequest) (binaryName : String) (payload : Bytes)
    {path text : String} (h : Member.ofText path text ∈ (r.plan binaryName payload).members) :
    (r.plan binaryName payload).text? path = some text := by
  have hf : (r.plan binaryName payload).members.filter (·.path = path) = [.ofText path text] :=
    filter_path_eq (r.nodup_entries binaryName payload) h
  rw [Plan.text?, hf]
  exact Utf8.decode?_encode text

/-! ## The identity of a layout -/

/-- The places in which a layout says what it is a wheel of, and what they say for a request. -/
structure Plan.Identifies (plan : Plan) (r : BuildRequest) : Prop where
  /-- The core metadata name one package and one version, those of the request with a space for
  each line end. -/
  metadata : ∃ text t, plan.text? (plan.distInfo ++ "/METADATA") = some text ∧
    HeaderText.read? text = some t ∧ t.values "Name" = [CoreMetadata.headerValue r.name] ∧
    t.values "Version" = [CoreMetadata.headerValue r.version]
  /-- The name there, normalized, is the package's directory with a space for each line end. -/
  module : normalize (CoreMetadata.headerValue r.name) = CoreMetadata.headerValue r.module
  /-- It is that very directory exactly if the request's name has no line end. -/
  module_iff : normalize (CoreMetadata.headerValue r.name) = r.module ↔
    '\r' ∉ r.name.toList ∧ '\n' ∉ r.name.toList
  /-- The directory of the descriptors has the version as it is. -/
  distInfo : plan.distInfo = r.module ++ "-" ++ r.version ++ ".dist-info"
  /-- So has the wheel's name. -/
  filename : plan.filename =
    r.module ++ "-" ++ r.version ++ "-py3-none-" ++ r.platform.text ++ ".whl"
  /-- The wheel's own descriptor has four lines, one of them with a tag, and the tag is the last
  three parts between dashes of the wheel's name without its extension. -/
  tag : ∃ text lines stem front python abi platform,
    plan.text? (plan.distInfo ++ "/WHEEL") = some text ∧ '\r' ∉ text.toList ∧
    Split.pieces '\n' text.toList = lines ++ [[]] ∧ lines.length = 4 ∧
    plan.filename = stem ++ ".whl" ∧
    Split.pieces '-' stem.toList = front ++ [python, abi, platform] ∧
    lines.filter ("Tag:".toList.isPrefixOf ·) =
      ["Tag: ".toList ++ Split.glue '-' [python, abi, platform]]
  /-- Every member is in the package's directory or in that of the descriptors. -/
  entries : ∀ path ∈ plan.entries,
    ∃ rest, path = r.module ++ "/" ++ rest ∨ path = plan.distInfo ++ "/" ++ rest

namespace BuildRequest

variable (r : BuildRequest) (binaryName : String) (payload : Bytes)

/-- What follows the name of a directory in a path begins with a slash. -/
theorem exists_of_mem_suffixes {name : String}
    (h : name ∈ packageSuffixes binaryName ∨ name ∈ r.infoNames) : ∃ rest, name = "/" ++ rest := by
  have hslash : name.toList.head? = some '/' := by
    rcases h with h | h
    · simp only [packageSuffixes, List.mem_cons, List.not_mem_nil, or_false] at h
      rcases h with rfl | rfl | rfl
      · rfl
      · rfl
      · rw [String.toList_append]
        rfl
    · revert name
      unfold infoNames
      cases r.entryPoint.isSome with
      | true => decide
      | false => decide
  obtain ⟨rest, hr⟩ := List.head?_eq_some_iff.1 hslash
  refine ⟨String.ofList rest, String.toList_inj.1 ?_⟩
  simp [hr]

theorem exists_of_mem_entries {path : String} (h : path ∈ (r.plan binaryName payload).entries) :
    ∃ rest, path = r.module ++ "/" ++ rest ∨ path = r.distInfo ++ "/" ++ rest := by
  rw [entries_eq] at h
  obtain ⟨suffix, hs, rfl⟩ := List.mem_map.1 h
  rcases List.mem_append.1 hs with hs | hs
  · obtain ⟨rest, rfl⟩ := r.exists_of_mem_suffixes binaryName (.inl hs)
    exact ⟨rest, .inl (String.append_assoc ..).symm⟩
  · obtain ⟨name, hname, rfl⟩ := List.mem_map.1 hs
    obtain ⟨rest, rfl⟩ := r.exists_of_mem_suffixes binaryName (.inr hname)
    refine ⟨rest, .inr ?_⟩
    rw [distInfo_eq, String.append_assoc, String.append_assoc]

/-- The texts of the two descriptors are laid out. -/
theorem mem_members_metadata :
    Member.ofText (r.distInfo ++ "/METADATA") r.metadata.render ∈
      (r.plan binaryName payload).members := by
  simp [plan, listed]

theorem mem_members_wheel :
    Member.ofText (r.distInfo ++ "/WHEEL") (wheelDescriptor r.platform) ∈
      (r.plan binaryName payload).members := by
  simp [plan, listed]

/-- A wheel's name without its extension. -/
def stem : String := r.module ++ "-" ++ r.version ++ "-" ++ r.platform.triple

theorem filename_eq : r.filename = r.stem ++ ".whl" := rfl

/-- Cut at dashes, a wheel's name ends in the three parts of its platform's triple. -/
theorem pieces_stem (h : '-' ∉ r.platform.text.toList) :
    ∃ front, Split.pieces '-' r.stem.toList =
      front ++ ["py3".toList, "none".toList, r.platform.text.toList] := by
  have hs : r.stem.toList =
      (r.module ++ "-" ++ r.version).toList ++ '-' :: r.platform.triple.toList := by
    simp only [stem, String.toList_append]
    rw [List.append_assoc]
    rfl
  refine ⟨Split.pieces '-' (r.module ++ "-" ++ r.version).toList, ?_⟩
  rw [hs, Split.pieces_append_sep, PlatformTag.pieces_triple h]

end BuildRequest

/-- The lines of the wheel's own descriptor that have a tag. -/
theorem filter_tag_lines (platform : PlatformTag) :
    ((wheelHeaders platform).headers.map HeaderText.line).filter ("Tag:".toList.isPrefixOf ·) =
      ["Tag: ".toList ++ platform.triple.toList] := by
  have hothers : ([("Wheel-Version", "1.0"), ("Generator", "bin-to-wheel 0.1.0"),
      ("Root-Is-Purelib", "false")].map HeaderText.line).filter ("Tag:".toList.isPrefixOf ·) =
        [] := by decide
  have hline : HeaderText.line ("Tag", platform.triple) =
      "Tag: ".toList ++ platform.triple.toList := by simp [HeaderText.line]
  have htag : "Tag:".toList.isPrefixOf ("Tag: ".toList ++ platform.triple.toList) = true := by
    have hp : "Tag:".toList <+: "Tag: ".toList := by decide
    exact List.isPrefixOf_iff_prefix.2 (hp.trans (List.prefix_append _ _))
  have hheaders : (wheelHeaders platform).headers = [("Wheel-Version", "1.0"),
      ("Generator", "bin-to-wheel 0.1.0"), ("Root-Is-Purelib", "false")] ++
        [("Tag", platform.triple)] := rfl
  rw [hheaders, List.map_append, List.filter_append, hothers, List.nil_append, List.map_cons,
    List.map_nil, hline, List.filter_cons, if_pos htag, List.filter_nil]

/-- A layout for a platform that a text resolves to says the same of its request in every place. -/
theorem identifies_of_resolve (r : BuildRequest) (binaryName : String) (payload : Bytes)
    {input : String} (h : Platform.resolve input = .ok r.platform) :
    (r.plan binaryName payload).Identifies r := by
  -- a resolved tag has none of the characters that would cut a name or a line
  have hfree : ∀ c, Platform.isTagChar c = false → c ∉ r.platform.text.toList := by
    intro c hc hm
    rw [Platform.isTagChar_of_resolve h c hm] at hc
    cases hc
  have hline : '\n' ∉ r.platform.triple.toList :=
    PlatformTag.not_mem_triple (hfree _ (by decide)) (by decide)
  constructor
  case metadata =>
    exact ⟨_, _, r.text?_plan binaryName payload (r.mem_members_metadata binaryName payload),
      r.metadata.read?_render, r.metadata.values_name, r.metadata.values_version⟩
  case module => exact normalize_headerValue r.name
  case module_iff => exact normalize_headerValue_eq_iff r.name
  case distInfo => rfl
  case filename =>
    have hd : "-" ++ "py3-none-" = "-py3-none-" := by decide
    rw [BuildRequest.plan, BuildRequest.filename, wheelFilename, PlatformTag.triple, ← hd]
    simp only [String.append_assoc]
  case tag =>
    obtain ⟨front, hf⟩ := r.pieces_stem (hfree _ (by decide))
    refine ⟨_, _, r.stem, front, _, _, _,
      r.text?_plan binaryName payload (r.mem_members_wheel binaryName payload), ?_,
      pieces_wheelDescriptor hline, rfl, r.filename_eq, hf, ?_⟩
    · rw [toList_wheelDescriptor, List.mem_append, List.mem_append, not_or, not_or]
      exact ⟨⟨by decide, PlatformTag.not_mem_triple (hfree _ (by decide)) (by decide)⟩, by decide⟩
    · rw [filter_tag_lines, ← PlatformTag.pieces_triple (hfree _ (by decide)), Split.glue_pieces]
  case entries => exact fun path hp => r.exists_of_mem_entries binaryName payload hp

namespace TwoLines

/-- A name with a dot, capital letters and a line end, and a version with a dash. -/
def request : BuildRequest where
  name := "My.Tool\r\nÉlan"
  version := "1-2\n"
  binary := .ofString "bin/tool"
  platform := ⟨"manylinux_2_17_x86_64"⟩
  entryPoint := some "tool"
  description := some "Tag: none\nName: other"
  author := none
  license := none
  url := none
  longDescription := some "Name: another"
  outputDir := .ofString "dist"

end TwoLines

theorem identifies_two_lines :
    Platform.resolve "linux-x86_64" = .ok TwoLines.request.platform ∧
      (TwoLines.request.plan "tool" [0x7F]).Identifies TwoLines.request := by
  have h : Platform.resolve "linux-x86_64" = .ok TwoLines.request.platform := rfl
  exact ⟨h, identifies_of_resolve TwoLines.request "tool" [0x7F] h⟩

end Wheelwright
