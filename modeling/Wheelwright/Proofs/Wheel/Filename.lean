import Wheelwright.Proofs.Platform.Resolution
import Wheelwright.Proofs.Text.LowerCase
import Wheelwright.Proofs.Wheel.Identity
import Wheelwright.Wheel.Filename
/-!
# Reading a wheel's name

A version may hold anything, dashes and the ends of other wheels' names among it, so a wheel's name
is read from both sides: the package's name up to the first dash, the tag from the last dash on.
`WheelName.read?` does so, and `WheelName.read?_eq_some_iff` says that it undoes `wheelFilename`
wherever name and tag have no dash, and accepts nothing else. No normalized name has a dash
(`not_mem_normalize`), and no tag that a platform resolves to (`Platform.not_mem_of_resolve`); so
the main statement, `wheelFilename_decodes`, is that builds that differ in the normalized name, the
version or the tag never share a wheel's name, nor those that differ in the first two a directory of
descriptors.
-/

namespace Wheelwright

namespace WheelName

variable {filename : String} {w : WheelName} {pieces : List (List Char)}

/-- What stands before the end of a wheel's name. -/
def stem (w : WheelName) : List Char :=
  w.normalized.toList ++ '-' :: (w.version.toList ++ '-' :: w.platform.triple.toList)

/-- The parts of a wheel's name between dashes, the version in as many as it has. -/
def parts (w : WheelName) : List (List Char) :=
  w.normalized.toList :: (Split.pieces '-' w.version.toList ++
    ["py3".toList, "none".toList, w.platform.text.toList])

theorem toList_wheelFilename (w : WheelName) :
    (wheelFilename w.normalized w.version w.platform).toList = w.stem ++ extension := by
  simp [wheelFilename, stem, extension]

theorem glue_parts (w : WheelName) : Split.glue '-' w.parts = w.stem := by
  have hv := Split.pieces_ne_nil '-' w.version.toList
  rw [parts, Split.glue_cons _ (by simp), Split.glue_append '-' hv (by simp), Split.glue_pieces]
  simp [stem, PlatformTag.triple, Split.glue]

/-- Cutting finds the parts if the version alone has dashes. -/
theorem pieces_stem (hname : '-' ∉ w.normalized.toList) (htag : '-' ∉ w.platform.text.toList) :
    Split.pieces '-' w.stem = w.parts := by
  rw [← glue_parts]
  refine Split.pieces_glue (by simp [parts]) ?_
  intro piece hp
  simp only [parts, List.mem_cons, List.mem_append, List.not_mem_nil, or_false] at hp
  rcases hp with rfl | hp | rfl | rfl | rfl
  · exact hname
  · exact Split.not_mem_of_mem_pieces hp
  · decide
  · decide
  · exact htag

/-- Pieces without dashes, the last of them first, are read as a name if and only if they are its
parts. -/
theorem ofPieces?_eq_some_iff (h : ∀ piece ∈ pieces, '-' ∉ piece) :
    ofPieces? pieces.reverse = some w ↔ pieces = w.parts := by
  constructor
  · intro hread
    unfold ofPieces? at hread
    split at hread
    · next tag binary python rest hpieces =>
      split at hread
      · cases hread
      · cases hread
      · next name version hne hrest =>
        split at hread
        · next hfixed =>
          obtain ⟨rfl, rfl⟩ := hfixed
          have hall : pieces =
              name :: (version ++ ["py3".toList, "none".toList, tag]) := by
            rw [← List.reverse_reverse pieces, hpieces]
            simp [hrest]
          have hversion : ∀ piece ∈ version, '-' ∉ piece := by
            intro piece hp
            exact h piece (by simp [hall, hp])
          cases hread
          simp only [hall, parts, String.toList_ofList, Split.pieces_glue hne hversion]
        · cases hread
    · cases hread
  · rintro rfl
    obtain ⟨first, rest, hv⟩ :=
      List.exists_cons_of_ne_nil (Split.pieces_ne_nil '-' w.version.toList)
    have hversion : String.ofList (Split.glue '-' (first :: rest)) = w.version := by
      rw [← hv, Split.glue_pieces, String.ofList_toList]
    simp [ofPieces?, parts, hv, hversion]

/-- Reading undoes writing where the package's name and the tag have no dash, and it reads nothing
else. -/
theorem read?_eq_some_iff : read? filename = some w ↔
    filename = wheelFilename w.normalized w.version w.platform ∧
      '-' ∉ w.normalized.toList ∧ '-' ∉ w.platform.text.toList := by
  have hfree : ∀ front : List Char, ∀ piece ∈ Split.pieces '-' front, '-' ∉ piece :=
    fun front piece => Split.not_mem_of_mem_pieces
  constructor
  · intro h
    unfold read? at h
    dsimp only at h
    split at h
    · next hstem =>
      generalize filename.toList.take (filename.toList.length - extension.length) = front at hstem h
      have hparts := (ofPieces?_eq_some_iff (hfree front)).1 h
      refine ⟨String.toList_inj.1 ?_, hfree front _ ?_, hfree front _ ?_⟩
      · rw [hstem, toList_wheelFilename, ← glue_parts, ← hparts, Split.glue_pieces]
      · simp [hparts, parts]
      · simp [hparts, parts]
    · cases h
  · rintro ⟨rfl, hname, htag⟩
    have htake : (w.stem ++ extension).take ((w.stem ++ extension).length - extension.length) =
        w.stem := by
      rw [List.length_append, Nat.add_sub_cancel]
      exact List.take_left
    unfold read?
    dsimp only
    rw [toList_wheelFilename, htake, if_pos rfl]
    exact (ofPieces?_eq_some_iff (hfree w.stem)).2 (pieces_stem hname htag)

/-- The parts are read from a wheel's name whatever the package's name, the version and the platform
are. -/
theorem read?_wheelFilename {name version input : String} {tag : PlatformTag}
    (h : Platform.resolve input = .ok tag) :
    read? (wheelFilename (normalize name) version tag) = some ⟨normalize name, version, tag⟩ :=
  read?_eq_some_iff.2 ⟨rfl, not_mem_normalize (.inl rfl) name,
    Platform.not_mem_of_resolve h (by decide)⟩

end WheelName

/-- The directory of descriptors tells the package's name from the version by its first dash. -/
theorem distInfo_inj {name name' version version' : String} (hn : '-' ∉ name.toList)
    (hn' : '-' ∉ name'.toList) (h : distInfo name version = distInfo name' version') :
    name = name' ∧ version = version' := by
  have hl : name.toList ++ '-' :: (version.toList ++ ".dist-info".toList) =
      name'.toList ++ '-' :: (version'.toList ++ ".dist-info".toList) := by
    simpa [distInfo] using congrArg String.toList h
  obtain ⟨hname, hversion⟩ := Split.append_cons_inj hn hn' hl
  exact ⟨String.toList_inj.1 hname, String.toList_inj.1 (List.append_cancel_right hversion)⟩

/-- Whatever the names and the versions are: from the name of a wheel, the normalized name, the
version and the tag that its platform resolved to can be read; so wheels that differ in one of them
differ in their names, and wheels that differ in the normalized name or in the version differ in
their directories of descriptors. -/
theorem wheelFilename_decodes :
    (∀ name version input tag, Platform.resolve input = .ok tag →
      WheelName.read? (wheelFilename (normalize name) version tag) =
        some ⟨normalize name, version, tag⟩) ∧
      (∀ name version input tag name' version' input' tag',
        Platform.resolve input = .ok tag → Platform.resolve input' = .ok tag' →
        wheelFilename (normalize name) version tag =
          wheelFilename (normalize name') version' tag' →
        normalize name = normalize name' ∧ version = version' ∧ tag = tag') ∧
      ∀ name version name' version',
        distInfo (normalize name) version = distInfo (normalize name') version' →
        normalize name = normalize name' ∧ version = version' := by
  refine ⟨fun name version input tag => WheelName.read?_wheelFilename, ?_, ?_⟩
  · intro name version input tag name' version' input' tag' h h' heq
    have hread := congrArg WheelName.read? heq
    rw [WheelName.read?_wheelFilename h, WheelName.read?_wheelFilename h'] at hread
    rw [Option.some.injEq, WheelName.mk.injEq] at hread
    exact hread
  · intro name version name' version' heq
    exact distInfo_inj (not_mem_normalize (.inl rfl) name) (not_mem_normalize (.inl rfl) name') heq

/-- A version that ends like a wheel's name, and two ways to write one package's name. -/
theorem wheelFilename_decodes_dashes :
    WheelName.read? "my_tool-1-py3-none-win32.whl-py3-none-win_amd64.whl" =
        some ⟨"my_tool", "1-py3-none-win32.whl", ⟨"win_amd64"⟩⟩ ∧
      normalize "My-Tool" = normalize "my.tool" := by
  have htag : Platform.resolve "windows-x64" = .ok ⟨"win_amd64"⟩ :=
    Platform.resolve_eq_ok_iff.2 (.inl (by decide))
  have hname : normalize "My-Tool" = "my_tool" := by decide
  have hfile : wheelFilename (normalize "My-Tool") "1-py3-none-win32.whl" ⟨"win_amd64"⟩ =
      "my_tool-1-py3-none-win32.whl-py3-none-win_amd64.whl" := by decide
  have hsame : wheelFilename (normalize "My-Tool") "1" ⟨"win_amd64"⟩ =
      wheelFilename (normalize "my.tool") "1" ⟨"win_amd64"⟩ := by decide
  obtain ⟨hread, hinj, -⟩ := wheelFilename_decodes
  constructor
  · rw [← hfile, ← hname]
    exact hread _ _ _ _ htag
  · exact (hinj _ _ _ _ _ _ _ _ htag htag hsame).1

end Wheelwright
