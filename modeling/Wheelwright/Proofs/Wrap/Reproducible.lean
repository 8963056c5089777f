import Wheelwright.Proofs.Archive.Stamp
import Wheelwright.Proofs.Build.Delivery
import Wheelwright.Proofs.Wrap.Effect
/-!
# Reproducible runs

What a run writes depends on what it is asked for and on little else: the tag that the platform
comes down to, the text of the long description, the program's name and bytes, and the even second
that the archive is stamped with. `Wrap.Alike` says that two runs are given the same of all these.
The main statement is `reproducible_wrap`: such runs, on whatever machines, disks and environments,
write the same archive and report the same of it.
-/

namespace Wheelwright

/-! ## Stamps in archives -/

namespace Zip

/-- Archives show stamps at even seconds. -/
theorem ofMember_atEvenSecond (stamp : Stamp) (offset : Nat) (member : Member) (packed : Bytes) :
    Header.ofMember stamp.atEvenSecond offset member packed =
      Header.ofMember stamp offset member packed := by
  simp [Header.ofMember]

theorem parts_atEvenSecond (codec : Codec) (stamp : Stamp) (offset : Nat) (members : List Member) :
    parts codec stamp.atEvenSecond offset members = parts codec stamp offset members := by
  induction members generalizing offset with
  | nil => rfl
  | cons member members ih => simp only [parts, ofMember_atEvenSecond, ih]

/-- Settings that select the same even second give the same archives. -/
theorem writeWith_congr_evenSecond (codec : Codec) {epoch₁ epoch₂ : Option Int}
    (h : Stamp.evenSecond? epoch₁ = Stamp.evenSecond? epoch₂) (members : List Member) :
    writeWith codec (Stamp.ofSetting epoch₁) members =
      writeWith codec (Stamp.ofSetting epoch₂) members := by
  have hw : ∀ stamp : Stamp,
      writeWith codec stamp members = writeWith codec stamp.atEvenSecond members := by
    intro stamp
    simp only [writeWith, parts_atEvenSecond]
  rw [hw, hw (Stamp.ofSetting epoch₂), Stamp.atEvenSecond_ofSetting, Stamp.atEvenSecond_ofSetting,
    h]

end Zip

/-! ## One run -/

/-- The layout is made without a look at where the program is and where the wheel goes. -/
theorem BuildRequest.plan_elsewhere (r : BuildRequest) (binary outputDir : Path) (name : String)
    (payload : Bytes) :
    { r with binary := binary, outputDir := outputDir }.plan name payload = r.plan name payload :=
  rfl

/-- A run that succeeds has settled the request, read the program, packed the layout, delivered the
archive, and reported it. -/
theorem Disk.exists_archive_of_wrap_ok {config : Config} {request : WrapRequest}
    {codec : Zip.Codec} {m : Machine} {d e : Disk} {o : Outcome}
    (h : d.wrap config request codec m = (o, e)) (ho : o.status = .ok) :
    ∃ settled payload name archive mid t, request.settled config m d = .ok settled ∧
      d.read settled.binary = .ok payload ∧ Build.binaryName settled.binary = .ok name ∧
      (settled.plan name payload).archiveWith codec config.epoch = .ok archive ∧
      Delivered settled archive d mid e t ∧
      o = Wrap.successOutcome settled (settled.built (settled.plan name payload) archive) := by
  rcases wrap_cases h with ⟨-, rfl, -⟩ | ⟨-, hw⟩
  · cases ho
  rcases hw with ⟨error, -, rfl, -⟩ | ⟨settled, hs, ⟨error, -, rfl⟩ | ⟨built, hb, rfl⟩⟩
  · exact absurd ho (Wrap.status_errorOutcome_ne_ok error)
  · exact absurd ho (Wrap.status_errorOutcome_ne_ok error)
  obtain ⟨plan, archive, mid, hp, rfl, hm, hw⟩ := exists_of_build_ok hb
  obtain ⟨payload, name, hr, hn, rfl, ha⟩ := BuildRequest.packed_eq_ok_iff.1 hp
  obtain ⟨t, hd⟩ := exists_delivered_of_persist hm hw
  exact ⟨settled, payload, name, archive, mid, t, hs, (program_eq_ok_iff.1 hr).2, hn, ha, hd, rfl⟩

/-- The same of the request as it was asked and of the archive as it is written. -/
theorem Disk.exists_of_wrap_ok {config : Config} {request : WrapRequest} {codec : Zip.Codec}
    {m : Machine} {d e : Disk} {o : Outcome} (h : d.wrap config request codec m = (o, e))
    (ho : o.status = .ok) :
    ∃ tag longDescription payload name mid t,
      request.platform.tag m = .ok tag ∧
      d.description request.longDescription = .ok longDescription ∧
      d.read request.binary = .ok payload ∧ Build.binaryName request.binary = .ok name ∧
      let settled := request.settle config tag longDescription
      let plan := settled.plan name payload
      let archive := Zip.writeWith codec (Stamp.ofSetting config.epoch) plan.members
      Delivered settled archive d mid e t ∧
        o = Wrap.successOutcome settled (settled.built plan archive) := by
  obtain ⟨settled, payload, name, archive, mid, t, hs, hr, hn, ha, hd, rfl⟩ :=
    exists_archive_of_wrap_ok h ho
  obtain ⟨tag, longDescription, ht, hl, rfl⟩ := WrapRequest.settled_eq_ok_iff.1 hs
  obtain ⟨-, rfl⟩ := Plan.archiveWith_eq_ok_iff.1 ha
  exact ⟨tag, longDescription, payload, name, mid, t, ht, hl, hr, hn, hd, rfl⟩

/-! ## What is reported -/

namespace Wrap

/-- What a run that succeeds reports of an archive. -/
def archiveFields (platform : PlatformTag) (entries : List String) (archive : Bytes) :
    List (String × Json) :=
  [("bytes", .integer archive.length), ("sha256", .string (hexDigest archive)),
    ("platform_tag", .string platform.text), ("entries", .ofTexts entries)]

/-- It is in the details, whatever else is there. -/
theorem field?_successOutcome (settled : BuildRequest) (plan : Plan) (archive : Bytes)
    {field : String × Json}
    (h : field ∈ archiveFields settled.platform plan.entries archive) :
    (successOutcome settled (settled.built plan archive)).details.field? field.1 =
      some field.2 := by
  simp only [archiveFields, List.mem_cons, List.not_mem_nil, or_false] at h
  unfold successOutcome
  rw [Json.field?_ofFields]
  rcases h with rfl | rfl | rfl | rfl
  · rfl
  · rfl
  · rfl
  · rfl

end Wrap

/-! ## Two runs -/

/-- Two runs are given the same of all that the wheel depends on. Where the programs, the long
descriptions and the output directories are, how the platforms are said and how the time is spelled
may differ, as may everything else on the disks. -/
structure Wrap.Alike (env₁ env₂ : Environment) (request₁ request₂ : WrapRequest) (w₁ w₂ : World) :
    Prop where
  name : request₁.name = request₂.name
  version : request₁.version = request₂.version
  entryPoint : request₁.entryPoint = request₂.entryPoint
  description : request₁.description = request₂.description
  author : request₁.author = request₂.author
  license : request₁.license = request₂.license
  url : request₁.url = request₂.url
  /-- The platforms come down to one tag, each on its own machine. -/
  platform : request₁.platform.tag w₁.machine = request₂.platform.tag w₂.machine
  /-- The long descriptions are one text, wherever it is. -/
  longDescription : w₁.disk.description request₁.longDescription =
    w₂.disk.description request₂.longDescription
  /-- The programs' paths end in one name. -/
  fileName : request₁.binary.fileName? = request₂.binary.fileName?
  payload : w₁.disk.read request₁.binary = w₂.disk.read request₂.binary
  /-- One even second is selected, or none by either. -/
  evenSecond : Stamp.evenSecond? (Config.ofEnvironment env₁).epoch =
    Stamp.evenSecond? (Config.ofEnvironment env₂).epoch

namespace Wrap.Alike

variable {env₁ env₂ : Environment} {request₁ request₂ : WrapRequest} {w₁ w₂ : World}

/-- Once settled, the two requests differ in where the programs are and where the wheels go. -/
theorem settle_eq (h : Alike env₁ env₂ request₁ request₂ w₁ w₂) (tag : PlatformTag)
    (longDescription : Option String) :
    request₂.settle (.ofEnvironment env₂) tag longDescription =
      { request₁.settle (.ofEnvironment env₁) tag longDescription with
        binary := request₂.binary
        outputDir := request₂.directory (.ofEnvironment env₂) } := by
  simp only [WrapRequest.settle, h.name, h.version, h.entryPoint, h.description, h.author,
    h.license, h.url]

/-- So they have one layout. -/
theorem plan_eq (h : Alike env₁ env₂ request₁ request₂ w₁ w₂) (tag : PlatformTag)
    (longDescription : Option String) (name : String) (payload : Bytes) :
    (request₂.settle (.ofEnvironment env₂) tag longDescription).plan name payload =
      (request₁.settle (.ofEnvironment env₁) tag longDescription).plan name payload := by
  rw [h.settle_eq, BuildRequest.plan_elsewhere]

/-- What is packed at the one setting is packed at the other. -/
theorem writeWith_eq (h : Alike env₁ env₂ request₁ request₂ w₁ w₂) (codec : Zip.Codec)
    (members : List Member) :
    Zip.writeWith codec (Stamp.ofSetting (Config.ofEnvironment env₂).epoch) members =
      Zip.writeWith codec (Stamp.ofSetting (Config.ofEnvironment env₁).epoch) members :=
  (Zip.writeWith_congr_evenSecond codec h.evenSecond members).symm

/-- Programs' paths that end in one name give one name. -/
theorem binaryName_eq (h : Alike env₁ env₂ request₁ request₂ w₁ w₂) {name₁ name₂ : String}
    (h₁ : Build.binaryName request₁.binary = .ok name₁)
    (h₂ : Build.binaryName request₂.binary = .ok name₂) : name₁ = name₂ := by
  obtain ⟨bytes₁, hf₁, hb₁⟩ := Build.binaryName_eq_ok_iff.1 h₁
  obtain ⟨bytes₂, hf₂, hb₂⟩ := Build.binaryName_eq_ok_iff.1 h₂
  cases (h.fileName ▸ hf₁).symm.trans hf₂
  exact Option.some.inj (hb₁.symm.trans hb₂)

end Wrap.Alike

/-- A run between two worlds has delivered an archive where its request, once settled, wants it;
the archive is that of the request's layout for the program as it was before, packed with a
codec. -/
def Wrap.Wrote (config : Config) (request : WrapRequest) (codec : Zip.Codec) (w w' : World)
    (archive : Bytes) : Prop :=
  ∃ settled payload name mid t, request.settled config w.machine w.disk = .ok settled ∧
    w.disk.read request.binary = .ok payload ∧ Build.binaryName request.binary = .ok name ∧
    archive =
      Zip.writeWith codec (Stamp.ofSetting config.epoch) (settled.plan name payload).members ∧
    Disk.Delivered settled archive w.disk mid w'.disk t

/-- Runs that are given the same and pack with one codec write the same archive, byte for byte, and
report the same of it. -/
theorem reproducible_wrap {env₁ env₂ : Environment} {request₁ request₂ : WrapRequest}
    {codec : Zip.Codec} {w₁ w₁' w₂ w₂' : World} {o₁ o₂ : Outcome}
    (h : Wrap.Alike env₁ env₂ request₁ request₂ w₁ w₂)
    (h₁ : (wrap (m := Simulation) (.ofEnvironment env₁) request₁ codec).run w₁ = (o₁, w₁'))
    (h₂ : (wrap (m := Simulation) (.ofEnvironment env₂) request₂ codec).run w₂ = (o₂, w₂'))
    (ho₁ : o₁.status = .ok) (ho₂ : o₂.status = .ok) :
    ∃ archive platform entries,
      Wrap.Wrote (.ofEnvironment env₁) request₁ codec w₁ w₁' archive ∧
      Wrap.Wrote (.ofEnvironment env₂) request₂ codec w₂ w₂' archive ∧
      ∀ field ∈ Wrap.archiveFields platform entries archive,
        o₁.details.field? field.1 = some field.2 ∧ o₂.details.field? field.1 = some field.2 := by
  obtain ⟨tag, longDescription, payload, name, mid₁, t₁, ht₁, hl₁, hp₁, hn₁, hd₁, rfl⟩ :=
    Disk.exists_of_wrap_ok (Disk.wrap_eq_of_run h₁) ho₁
  obtain ⟨tag₂, longDescription₂, payload₂, name₂, mid₂, t₂, ht₂, hl₂, hp₂, hn₂, hd₂, rfl⟩ :=
    Disk.exists_of_wrap_ok (Disk.wrap_eq_of_run h₂) ho₂
  -- both runs have found the same tag, text, program and name
  cases (h.platform ▸ ht₁).symm.trans ht₂
  cases (h.longDescription ▸ hl₁).symm.trans hl₂
  cases (h.payload ▸ hp₁).symm.trans hp₂
  cases h.binaryName_eq hn₁ hn₂
  rw [h.plan_eq, h.writeWith_eq] at hd₂ ⊢
  refine ⟨_, tag,
    ((request₁.settle (.ofEnvironment env₁) tag longDescription).plan name payload).entries,
    ⟨_, payload, name, mid₁, t₁, ?_, hp₁, hn₁, rfl, hd₁⟩,
    ⟨_, payload, name, mid₂, t₂, ?_, hp₂, hn₂, ?_, hd₂⟩, ?_⟩
  · exact WrapRequest.settled_eq_ok_iff.2 ⟨tag, longDescription, ht₁, hl₁, rfl⟩
  · exact WrapRequest.settled_eq_ok_iff.2 ⟨tag, longDescription, ht₂, hl₂, rfl⟩
  · rw [h.plan_eq, h.writeWith_eq]
  · intro field hfield
    exact ⟨Wrap.field?_successOutcome _ _ _ hfield, Wrap.field?_successOutcome _ _ _ hfield⟩

/-! ## One wheel made twice -/

namespace Twice

/-- What a run is given. -/
structure Setting where
  env : Environment
  request : WrapRequest
  world : World

/-- A request for a wheel of a program, with everything else left open. -/
def request (binary : String) (platform : PlatformChoice) (outputDir : Option Path)
    (longDescription : LongDescription) : WrapRequest where
  name := "My-Tool"
  version := "1"
  binary := .ofString binary
  platform := platform
  outputDir := outputDir
  entryPoint := some "tool"
  description := none
  author := none
  license := none
  url := none
  longDescription := some longDescription

/-- On this machine the platform is detected, the long description is in a file, and the output
directory is still to be made. -/
def detected : Setting where
  env := ⟨[("SOURCE_DATE_EPOCH", "1700000001")]⟩
  request := request "t" .detect none (.readme (.ofString "README.md"))
  world :=
    { machine := ⟨"linux", "x86_64"⟩
      disk := ⟨Crossing.folder [(Utf8.encode "t", ⟨some (.file 0o755 [0x7F]), []⟩),
        (Utf8.encode "README.md", ⟨some (.file 0o644 (Utf8.encode "# Tool")), []⟩)], []⟩
      journal := [] }

/-- On this one the platform is said by its alias, the long description is in the request, the
program is in another directory and is not to be run, and the output directory has a file. -/
def said : Setting where
  env := ⟨[("SOURCE_DATE_EPOCH", " +1700000000 "), ("BIN_TO_WHEEL_OUT_DIR", "unused")]⟩
  request := request "bin/t" (.explicit "linux-x86_64") (some (.ofString "out")) (.inline "# Tool")
  world :=
    { machine := ⟨"macos", "aarch64"⟩
      disk := ⟨Crossing.folder [(Utf8.encode "bin", Crossing.folder
          [(Utf8.encode "t", ⟨some (.file 0o600 [0x7F]), []⟩)]),
        (Utf8.encode "out", Crossing.folder
          [(Utf8.encode "other", ⟨some (.file 0o644 [0]), []⟩)])], []⟩
      journal := [] }

/-- The request with everything settled. -/
def settled (s : Setting) : BuildRequest :=
  s.request.settle (.ofEnvironment s.env) ⟨"manylinux_2_17_x86_64"⟩ (some "# Tool")

/-- The disk when the directories are there. -/
def ready (s : Setting) : Disk := (s.world.disk.makeDirectories (settled s).outputDir).2

/-- Where the wheel goes in an output directory. -/
def place (dir : String) : Location :=
  [Utf8.encode "my_tool-1-py3-none-manylinux_2_17_x86_64.whl", Utf8.encode dir]

/-- Both runs succeed. -/
theorem exists_run_ok {s : Setting} {dir : String}
    (h : (s, dir) = (detected, "dist") ∨ (s, dir) = (said, "out")) :
    ∃ o w', (wrap (m := Simulation) (.ofEnvironment s.env) s.request Zip.stored).run s.world =
        (o, w') ∧ o.status = .ok := by
  have hl : Wrap.lacksName s.request = false := by
    rcases h with h | h <;> cases h <;> decide +kernel
  have hs : s.request.settled (.ofEnvironment s.env) s.world.machine s.world.disk =
      .ok (settled s) := by
    rcases h with h | h <;> cases h <;> decide +kernel
  have hp : s.world.disk.program (settled s).binary = .ok [0x7F] := by
    rcases h with h | h <;> cases h <;> decide +kernel
  have hn : Build.binaryName (settled s).binary = .ok "t" := by
    rcases h with h | h <;> cases h <;> decide +kernel
  have hx : (settled s).extent "t" ≤ 10000000 := by
    rcases h with h | h <;> cases h <;> decide +kernel
  have hb : [(0x7F : UInt8)].length ≤ Zip.largestMember := by decide
  have hk : (Zip.stored.pack [0x7F]).length ≤ Zip.largestMember := by decide
  have hm : s.world.disk.makeDirectories (settled s).outputDir = (.ok (), ready s) := by
    refine Prod.ext ?_ rfl
    rcases h with h | h <;> cases h <;> decide +kernel
  have hst : ((ready s).stage (settled s).outputDir).isOk = true := by
    rcases h with h | h <;> cases h <;> decide +kernel
  have hz : (settled s).wheelPath.bytes.contains 0 = false := by
    rcases h with h | h <;> cases h <;> decide +kernel
  have ht : (ready s).slot (settled s).wheelPath .busy = .ok (place dir) := by
    rcases h with h | h <;> cases h <;> decide +kernel
  have hd : (ready s).hasDirectory (place dir) = false := by
    rcases h with h | h <;> cases h <;> decide +kernel
  obtain ⟨built, e, hbuild, -⟩ := Disk.exists_build_ok (settled s) s.world.disk hp hn
    Zip.isFrugal_stored hx hb hk hm hst hz ht hd (Config.ofEnvironment s.env).epoch
  obtain ⟨w', hw, -⟩ := Disk.exists_run_wrap_ok hl hs hbuild
  exact ⟨_, w', hw, rfl⟩

theorem alike : Wrap.Alike detected.env said.env detected.request said.request detected.world
    said.world where
  name := rfl
  version := rfl
  entryPoint := rfl
  description := rfl
  author := rfl
  license := rfl
  url := rfl
  platform := rfl
  longDescription := by decide +kernel
  fileName := by decide +kernel
  payload := by decide +kernel
  evenSecond := by decide +kernel

end Twice

/-- Two runs that are told all they need in different ways make one wheel. -/
theorem reproducible_wrap_twice : ∃ o₁ w₁' o₂ w₂',
    (wrap (m := Simulation) (.ofEnvironment Twice.detected.env) Twice.detected.request
        Zip.stored).run Twice.detected.world = (o₁, w₁') ∧ o₁.status = .ok ∧
      (wrap (m := Simulation) (.ofEnvironment Twice.said.env) Twice.said.request Zip.stored).run
        Twice.said.world = (o₂, w₂') ∧ o₂.status = .ok ∧
      ∃ archive platform entries,
        Wrap.Wrote (.ofEnvironment Twice.detected.env) Twice.detected.request Zip.stored
          Twice.detected.world w₁' archive ∧
        Wrap.Wrote (.ofEnvironment Twice.said.env) Twice.said.request Zip.stored Twice.said.world
          w₂' archive ∧
        ∀ field ∈ Wrap.archiveFields platform entries archive,
          o₁.details.field? field.1 = some field.2 ∧ o₂.details.field? field.1 = some field.2 := by
  obtain ⟨o₁, w₁', hr₁, ho₁⟩ := Twice.exists_run_ok (.inl rfl)
  obtain ⟨o₂, w₂', hr₂, ho₂⟩ := Twice.exists_run_ok (.inr rfl)
  exact ⟨o₁, w₁', o₂, w₂', hr₁, ho₁, hr₂, ho₂, reproducible_wrap Twice.alike hr₁ hr₂ ho₁ ho₂⟩

end Wheelwright
