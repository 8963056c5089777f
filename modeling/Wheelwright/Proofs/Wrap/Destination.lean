import Wheelwright.Proofs.Build.Delivery
import Wheelwright.Proofs.Platform.Resolution
import Wheelwright.Proofs.Text.Ascii
import Wheelwright.Proofs.Text.LowerCase
import Wheelwright.Proofs.Wrap.Effect
/-!
# Where a run puts its wheel

A wheel's name is made from texts that are the caller's. It is one name, without a slash, exactly if
the package's name and version have no slash (`slash_mem_filename_iff`); then the wheel is directly
in the output directory. The main statement is `exists_place_of_run`; `exists_run_below` is a run
whose wheel ends up in a directory below it, because the package's name has a slash.
-/

namespace Wheelwright

/-! ## Slashes in a wheel's name -/

/-- The tag that a choice comes down to has only the characters of tags. -/
theorem PlatformChoice.not_mem_tag {m : Machine} {choice : PlatformChoice} {tag : PlatformTag}
    {c : Char} (hc : Platform.isTagChar c = false) (h : choice.tag m = .ok tag) :
    c ∉ tag.text.toList := by
  unfold PlatformChoice.tag at h
  split at h
  · exact Platform.not_mem_of_resolve h hc
  · split at h
    · cases h
    · exact Platform.not_mem_of_resolve h hc

/-- A wheel's name has a slash exactly if the package's name or version has one. -/
theorem BuildRequest.slash_mem_filename_iff {r : BuildRequest}
    (h : '/' ∉ r.platform.text.toList) :
    '/' ∈ r.filename.toList ↔ '/' ∈ r.name.toList ∨ '/' ∈ r.version.toList := by
  have hn := mem_normalize_iff (a := '/') (by decide) (by decide) (by decide) r.name
  have h₁ : '/' ∉ "-".toList := by decide
  have h₂ : '/' ∉ "py3-none-".toList := by decide
  have h₃ : '/' ∉ ".whl".toList := by decide
  simp only [filename, wheelFilename, module, PlatformTag.triple, String.toList_append,
    List.mem_append, hn, h, h₁, h₂, h₃, or_false]

/-- A wheel whose name has no slash is directly in the output directory, by its path and by its
place. -/
theorem Disk.Delivered.exists_place {r : BuildRequest} {archive : Bytes} {d mid e : Disk}
    {t : Location} (hd : Delivered r archive d mid e t) (hs : '/' ∉ r.filename.toList) :
    r.wheelPath.names = r.outputDir.names ++ [Utf8.encode r.filename] ∧
      ∃ here, mid.follow r.outputDir r.outputDir.names = .ok here ∧ mid.hasDirectory here ∧
        t = Utf8.encode r.filename :: here := by
  have hb : Path.slash ∉ (Path.ofString r.filename).bytes := by
    rwa [Path.slash_mem_ofString]
  have hne : (Path.ofString r.filename).bytes ≠ [] := r.bytes_filename_ne (by decide)
  have hp := exists_of_slot_join r.outputDir (.ofString r.filename) hb hne hd.place
  rw [Path.bytes_ofString] at hp
  exact ⟨BuildRequest.names_wheelPath hs, hp⟩

/-- The wheel of a run that succeeds has a name without a slash, and is directly in the output
directory by its path and by its place, exactly if the package's name and version have no slash. -/
theorem exists_place_of_run {config : Config} {request : WrapRequest} {codec : Zip.Codec}
    {w w' : World} {o : Outcome} (h : (wrap (m := Simulation) config request codec).run w = (o, w'))
    (ho : o.status = .ok) :
    ∃ settled archive mid t, request.settled config w.machine w.disk = .ok settled ∧
      settled.outputDir = request.directory config ∧
      Disk.Delivered settled archive w.disk mid w'.disk t ∧
      (('/' ∉ settled.filename.toList ∧
          settled.wheelPath.names = settled.outputDir.names ++ [Utf8.encode settled.filename] ∧
          ∃ here, mid.follow settled.outputDir settled.outputDir.names = .ok here ∧
            mid.hasDirectory here ∧ t = Utf8.encode settled.filename :: here) ↔
        '/' ∉ request.name.toList ∧ '/' ∉ request.version.toList) := by
  rcases Disk.wrap_cases (Disk.wrap_eq_of_run h) with ⟨-, rfl, -⟩ | ⟨-, hw⟩
  · cases ho
  rcases hw with ⟨error, -, rfl, -⟩ | ⟨settled, hs, ⟨error, -, rfl⟩ | ⟨built, hb, -⟩⟩
  · exact absurd ho (Wrap.status_errorOutcome_ne_ok error)
  · exact absurd ho (Wrap.status_errorOutcome_ne_ok error)
  obtain ⟨tag, longDescription, ht, -, rfl⟩ := WrapRequest.settled_eq_ok_iff.1 hs
  obtain ⟨-, archive, mid, -, -, hm, hp⟩ := Disk.exists_of_build_ok hb
  obtain ⟨t, hd⟩ := Disk.exists_delivered_of_persist hm hp
  have hslash : '/' ∉ (request.settle config tag longDescription).filename.toList ↔
      '/' ∉ request.name.toList ∧ '/' ∉ request.version.toList := by
    rw [BuildRequest.slash_mem_filename_iff (PlatformChoice.not_mem_tag (by decide) ht), not_or]
    exact Iff.rfl
  refine ⟨_, archive, mid, t, hs, rfl, hd, ?_⟩
  constructor
  · rintro ⟨hf, -⟩
    exact hslash.1 hf
  · intro hn
    exact ⟨hslash.2 hn, hd.exists_place (hslash.2 hn)⟩

/-! ## A package's name with a slash -/

namespace Nested

/-- A world with a program `t` and a directory `out` with a directory `a` in it. -/
def world : World where
  machine := ⟨"linux", "x86_64"⟩
  disk := ⟨Crossing.folder [(Utf8.encode "t", ⟨some (.file 0o755 [0x7F]), []⟩),
    (Utf8.encode "out", Crossing.folder [(Utf8.encode "a", Crossing.folder [])])], []⟩
  journal := []

/-- A request for a wheel in the directory `out`. -/
def request (name : String) : WrapRequest where
  name := name
  version := "1"
  binary := .ofString "t"
  platform := .explicit "win_amd64"
  outputDir := some (.ofString "out")
  entryPoint := none
  description := none
  author := none
  license := none
  url := none
  longDescription := none

/-- Settings that leave everything open. -/
def config : Config := ⟨.ofString "dist", none⟩

/-- The request with everything settled. -/
def settled (name : String) : BuildRequest := (request name).settle config ⟨"win_amd64"⟩ none

/-- The place of the wheel of `b` and the place of the wheel of `a/b`. -/
def places : List (String × Location) :=
  [("b", [Utf8.encode "b-1-py3-none-win_amd64.whl", Utf8.encode "out"]),
    ("a/b", [Utf8.encode "b-1-py3-none-win_amd64.whl", Utf8.encode "a", Utf8.encode "out"])]

/-- A run with the program `t` and the directory `out` succeeds, and needs no further directories,
if nothing stands in the wheel's place. -/
theorem exists_run_of {request : WrapRequest} {settled : BuildRequest} {t : Location}
    (hl : Wrap.lacksName request = false)
    (hr : request.settled config world.machine world.disk = .ok settled)
    (hbinary : settled.binary = .ofString "t") (hout : settled.outputDir = .ofString "out")
    (hx : settled.extent "t" ≤ 10000000) (hz : settled.wheelPath.bytes.contains 0 = false)
    (ht : world.disk.slot settled.wheelPath .busy = .ok t)
    (hd : world.disk.hasDirectory t = false) :
    ∃ o w', (wrap (m := Simulation) config request Zip.stored).run world = (o, w') ∧
      o.status = .ok ∧
      Disk.Delivered settled
        (Zip.writeWith Zip.stored (Stamp.ofSetting config.epoch) (settled.plan "t" [0x7F]).members)
        world.disk world.disk w'.disk t := by
  have hp : world.disk.program settled.binary = .ok [0x7F] := by
    rw [hbinary]
    decide +kernel
  have hn : Build.binaryName settled.binary = .ok "t" := by
    rw [hbinary]
    decide +kernel
  have hc : [(0x7F : UInt8)].length ≤ Zip.largestMember := by decide
  have hk : (Zip.stored.pack [0x7F]).length ≤ Zip.largestMember := by decide
  have hm : world.disk.makeDirectories settled.outputDir = (.ok (), world.disk) := by
    rw [hout]
    refine Prod.ext ?_ rfl
    decide +kernel
  have hs : (world.disk.stage settled.outputDir).isOk = true := by
    rw [hout]
    decide +kernel
  obtain ⟨built, e, hb, hd⟩ :=
    Disk.exists_build_ok settled world.disk hp hn Zip.isFrugal_stored hx hc hk hm hs hz ht hd
      config.epoch
  obtain ⟨w', hw, rfl⟩ := Disk.exists_run_wrap_ok hl hr hb
  exact ⟨_, w', hw, rfl, hd⟩

/-- Both runs succeed. -/
theorem exists_run_ok {name : String} {t : Location} (h : (name, t) ∈ places) :
    ∃ o w', (wrap (m := Simulation) config (request name) Zip.stored).run world = (o, w') ∧
      o.status = .ok ∧
      ∃ archive, Disk.Delivered (settled name) archive world.disk world.disk w'.disk t := by
  simp only [places, List.mem_cons, Prod.mk.injEq, List.not_mem_nil, or_false] at h
  have hl : Wrap.lacksName (request name) = false := by
    rcases h with ⟨rfl, -⟩ | ⟨rfl, -⟩ <;> decide +kernel
  have hr : (request name).settled config world.machine world.disk = .ok (settled name) := rfl
  have hx : (settled name).extent "t" ≤ 10000000 := by
    rcases h with ⟨rfl, -⟩ | ⟨rfl, -⟩ <;> decide +kernel
  have hz : (settled name).wheelPath.bytes.contains 0 = false := by
    rcases h with ⟨rfl, -⟩ | ⟨rfl, -⟩ <;> decide +kernel
  have ht : world.disk.slot (settled name).wheelPath .busy = .ok t := by
    rcases h with ⟨rfl, rfl⟩ | ⟨rfl, rfl⟩ <;> decide +kernel
  have hd : world.disk.hasDirectory t = false := by
    rcases h with ⟨-, rfl⟩ | ⟨-, rfl⟩ <;> decide +kernel
  obtain ⟨o, w', hw, ho, hd⟩ := exists_run_of hl hr rfl rfl hx hz ht hd
  exact ⟨o, w', hw, ho, _, hd⟩

end Nested

/-- The wheel of `b` is directly in the output directory. -/
theorem exists_place_of_run_plain : ∃ o w',
    (wrap (m := Simulation) Nested.config (Nested.request "b") Zip.stored).run Nested.world =
        (o, w') ∧
      o.status = .ok ∧
      ∃ settled archive mid t,
        (Nested.request "b").settled Nested.config Nested.world.machine Nested.world.disk =
          .ok settled ∧
        settled.outputDir = (Nested.request "b").directory Nested.config ∧
        Disk.Delivered settled archive Nested.world.disk mid w'.disk t ∧
        (('/' ∉ settled.filename.toList ∧
            settled.wheelPath.names =
              settled.outputDir.names ++ [Utf8.encode settled.filename] ∧
            ∃ here, mid.follow settled.outputDir settled.outputDir.names = .ok here ∧
              mid.hasDirectory here ∧ t = Utf8.encode settled.filename :: here) ↔
          '/' ∉ (Nested.request "b").name.toList ∧ '/' ∉ (Nested.request "b").version.toList) := by
  obtain ⟨o, w', hr, ho, -⟩ := Nested.exists_run_ok (.head _)
  exact ⟨o, w', hr, ho, exists_place_of_run hr ho⟩

/-- The name of the wheel of `a/b` has a slash. The wheel is in a directory below the output
directory, in which nothing changes. -/
theorem exists_run_below : ∃ o w',
    (wrap (m := Simulation) Nested.config (Nested.request "a/b") Zip.stored).run Nested.world =
        (o, w') ∧
      o.status = .ok ∧ '/' ∈ (Nested.settled "a/b").filename.toList ∧
      (∃ content, w'.disk.node?
        [Utf8.encode "b-1-py3-none-win_amd64.whl", Utf8.encode "a", Utf8.encode "out"] =
          some (.file Build.wheelMode content)) ∧
      ∀ name, w'.disk.node? [name, Utf8.encode "out"] =
        Nested.world.disk.node? [name, Utf8.encode "out"] := by
  obtain ⟨o, w', hr, ho, archive, hd⟩ := Nested.exists_run_ok (.tail _ (.head _))
  have hs : '/' ∈ (Nested.settled "a/b").filename.toList :=
    (BuildRequest.slash_mem_filename_iff (by decide)).2 (.inl (by decide))
  refine ⟨o, w', hr, ho, hs, ⟨archive, hd.wheel⟩, fun name => hd.elsewhere _ ?_⟩
  intro he
  cases congrArg List.length he

end Wheelwright
