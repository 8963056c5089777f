import Wheelwright.Wheel.Plan
import Wheelwright.Proofs.Record
/-!
# The manifest vouches for the whole wheel

Whatever the texts of a request are, the members of a layout stand under different paths: each path
begins with the module's name, and what follows tells them apart by its first characters
(`nodup_entries`). So the manifest, which leaves out any member stored under its own path, leaves
out none. The main statement is `read_manifest`: read back as comma-separated values, the manifest
has one row for every member, in order, with the digest and the size of what is stored.
-/

namespace Wheelwright

/-! ## Different paths -/

/-- Texts that begin differently are different, whatever follows. -/
theorem append_ne_append {p q : String} (h : p.toList.length = q.toList.length)
    (hne : p.toList ≠ q.toList) (s t : String) : p ++ s ≠ q ++ t := by
  intro he
  have hl : p.toList ++ s.toList = q.toList ++ t.toList := by
    rw [← String.toList_append, he, String.toList_append]
  exact hne (List.append_inj_left hl h)

theorem nodup_map_append {names : List String} (s : String) (h : names.Nodup) :
    (names.map (s ++ ·)).Nodup := by
  refine List.Pairwise.map _ ?_ h
  intro a b hne he
  exact hne ((String.append_right_inj s).1 he)

namespace BuildRequest

variable (r : BuildRequest) (binaryName : String) (payload : Bytes)

/-- What follows the module's name in the directory of the descriptors. -/
def infoSuffix : String := "-" ++ r.version ++ ".dist-info"

/-- What follows the module's name in the paths of the package, in order. -/
def packageSuffixes : List String :=
  ["/__init__.py", "/__main__.py", "/bin/" ++ binaryName]

/-- What follows the name of their directory in the paths of the descriptors, in order. -/
def infoNames : List String :=
  ["/METADATA", "/WHEEL"] ++ (if r.entryPoint.isSome then ["/entry_points.txt"] else []) ++
    ["/RECORD"]

theorem distInfo_eq : r.distInfo = r.module ++ r.infoSuffix := by
  simp only [distInfo, Wheelwright.distInfo, infoSuffix, String.append_assoc]

/-- Where the manifest stands. -/
def recordPath : String := r.distInfo ++ "/RECORD"

/-- The manifest's text. -/
def recordText : String := renderRecord (r.listed binaryName payload) r.recordPath

theorem members_plan : (r.plan binaryName payload).members =
    r.listed binaryName payload ++ [.ofText r.recordPath (r.recordText binaryName payload)] := rfl

/-- The paths of a layout, part by part. -/
theorem entries_eq : (r.plan binaryName payload).entries =
    (packageSuffixes binaryName ++ r.infoNames.map (r.infoSuffix ++ ·)).map (r.module ++ ·) := by
  unfold Plan.entries plan listed packageSuffixes infoNames
  cases r.entryPoint with
  | none => simp [Member.ofText, distInfo_eq, String.append_assoc]
  | some command => simp [Member.ofText, distInfo_eq, String.append_assoc]

theorem nodup_packageSuffixes : (packageSuffixes binaryName).Nodup := by
  have hi : "/__in" ++ "it__.py" ≠ "/bin/" ++ binaryName :=
    append_ne_append (by decide) (by decide) _ _
  have hm : "/__ma" ++ "in__.py" ≠ "/bin/" ++ binaryName :=
    append_ne_append (by decide) (by decide) _ _
  have h : "/__init__.py" ≠ "/__main__.py" := by decide
  simp only [packageSuffixes, List.nodup_cons, List.mem_cons, List.not_mem_nil, or_false, not_or,
    not_false_eq_true, List.nodup_nil, and_true]
  exact ⟨⟨h, hi⟩, hm⟩

theorem nodup_infoNames : r.infoNames.Nodup := by
  unfold infoNames
  cases r.entryPoint.isSome with
  | true => decide
  | false => decide

/-- A path of the package is none of the descriptors. -/
theorem slash_append_ne (s name : String) : "/" ++ s ≠ r.infoSuffix ++ name := by
  unfold infoSuffix
  rw [String.append_assoc, String.append_assoc]
  exact append_ne_append (by decide) (by decide) _ _

/-- The members of a layout stand under different paths. -/
theorem nodup_entries : (r.plan binaryName payload).entries.Nodup := by
  rw [entries_eq]
  refine nodup_map_append _ (List.nodup_append.2 ⟨nodup_packageSuffixes binaryName, ?_, ?_⟩)
  · exact nodup_map_append _ r.nodup_infoNames
  · intro a ha b hb
    obtain ⟨name, -, rfl⟩ := List.mem_map.1 hb
    simp only [packageSuffixes, List.mem_cons, List.not_mem_nil, or_false] at ha
    rcases ha with rfl | rfl | rfl
    · exact r.slash_append_ne "__init__.py" name
    · exact r.slash_append_ne "__main__.py" name
    · exact r.slash_append_ne ("bin/" ++ binaryName) name

/-- No listed member stands in the manifest's place. -/
theorem path_ne_recordPath {member : Member} (h : member ∈ r.listed binaryName payload) :
    member.path ≠ r.recordPath := by
  have hn := r.nodup_entries binaryName payload
  rw [Plan.entries, members_plan, List.map_append, List.nodup_append] at hn
  exact hn.2.2 _ (List.mem_map_of_mem h) _ (List.mem_singleton.2 rfl)

end BuildRequest

/-! ## Reading the manifest -/

/-- A manifest of members stored elsewhere has a row for each of them and one for itself. -/
theorem read?_renderRecord {members : List Member} {recordPath : String}
    (h : ∀ member ∈ members, member.path ≠ recordPath) :
    Csv.read? (renderRecord members recordPath) =
      some (members.map Member.fields ++ [[recordPath, "", ""]]) := by
  have hf : members.filter (·.path ≠ recordPath) = members :=
    List.filter_eq_self.2 fun member hm => decide_eq_true (h member hm)
  rw [read?_renderRecord_eq, manifestRows, hf]

/-- The members of a layout stand under different paths, the manifest is the last of them, and read
back it has a row for every member in order: path, digest and size, but only the path for the
manifest itself. -/
theorem read_manifest (r : BuildRequest) (binaryName : String) (payload : Bytes) :
    (r.plan binaryName payload).entries.Nodup ∧
      ∃ listed record text, (r.plan binaryName payload).members = listed ++ [record] ∧
        record.path = (r.plan binaryName payload).recordPath ∧
        Utf8.decode? record.content = some text ∧
        Csv.read? text = some (listed.map Member.fields ++
          [[(r.plan binaryName payload).recordPath, "", ""]]) := by
  have hn := r.nodup_entries binaryName payload
  refine ⟨hn, _, _, r.recordText binaryName payload, r.members_plan binaryName payload, rfl, ?_, ?_⟩
  · unfold Member.ofText
    dsimp only
    rw [Utf8.decode?_encode]
  · apply read?_renderRecord
    intro member hm he
    -- a listed member under the manifest's path would be a second one there
    have hm' : member.path ∈ (r.listed binaryName payload).map (·.path) :=
      List.mem_map_of_mem hm
    rw [Plan.entries, r.members_plan, List.map_append, List.nodup_append] at hn
    exact hn.2.2 _ hm' _ (List.mem_singleton.2 rfl) he

end Wheelwright
