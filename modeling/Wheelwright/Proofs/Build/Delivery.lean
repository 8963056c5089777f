import Wheelwright.Proofs.Build.Frame
import Wheelwright.Proofs.Disk.Join
import Wheelwright.Proofs.Wheel.Extent
/-!
# Builds that succeed

A build that succeeds changes one place of the disk, besides making the directories that it needs.
The place is the one that the wheel's path points to once the directories are there; what stood
there, a file or a link but never a directory, is replaced whole, and whatever stands elsewhere
stays. `Disk.Delivered` says all this of the disk before, the disk with the directories, and the
disk after. The main statements are

* `Disk.Delivered.slot_iff` — paths point to the same places afterwards as they do without what the
  wheel replaced, so that a path to the wheel is lost only if it went through the link that stood in
  the wheel's place;
* `exists_delivered_of_build` — a build that succeeds has delivered the archive of its layout.
-/

namespace Wheelwright

theorem Disk.isRegularFile_iff {d : Disk} {binary : Path} :
    d.isRegularFile binary = true ↔ ∃ mode content, d.find? binary = .ok (.file mode content) := by
  unfold isRegularFile
  split
  · next mode content hf => simp [hf]
  · next hf =>
    simp only [Bool.false_eq_true, false_iff]
    rintro ⟨mode, content, h⟩
    exact hf mode content h

theorem Disk.program_eq_ok_iff {d : Disk} {binary : Path} {payload : Bytes} :
    d.program binary = .ok payload ↔
      d.isRegularFile binary = true ∧ d.read binary = .ok payload := by
  unfold program
  by_cases hr : d.isRegularFile binary = true
  · cases hd : d.read binary with
    | error cause => simp [hr, Except.mapError]
    | ok content => simp [hr, Except.mapError]
  · simp [hr]

theorem Build.refusal?_eq_none_iff {codec : Zip.Codec} {member : Member} :
    refusal? codec member = none ↔ member.content.length ≤ Zip.largestMember ∧
      (codec.pack member.content).length ≤ Zip.largestMember := by
  unfold refusal?
  split
  · simp; omega
  · split
    · simp; omega
    · simp; omega

theorem Plan.archiveWith_eq_ok_iff {codec : Zip.Codec} {plan : Plan} {epoch : Option Int}
    {archive : Bytes} : plan.archiveWith codec epoch = .ok archive ↔
      (∀ member ∈ plan.members, member.content.length ≤ Zip.largestMember ∧
          (codec.pack member.content).length ≤ Zip.largestMember) ∧
        archive = Zip.writeWith codec (Stamp.ofSetting epoch) plan.members := by
  unfold Plan.archiveWith
  simp only [← Build.refusal?_eq_none_iff, ← List.findSome?_eq_none_iff]
  cases hf : plan.members.findSome? (Build.refusal? codec) with
  | none =>
    constructor
    · intro h
      cases h
      exact ⟨rfl, rfl⟩
    · rintro ⟨-, rfl⟩
      rfl
  | some error => simp

/-- An archive is packed exactly if no member is too large, and it is that of the layout. -/
theorem Build.packWith_eq_ok_iff {codec : Zip.Codec} {plan : Plan} {epoch : Option Int} {w : World}
    {archive : Bytes} :
    (∃ w', (packWith (m := Simulation) codec plan epoch).run.run w = (.ok archive, w')) ↔
      (∀ m ∈ plan.members, m.content.length ≤ Zip.largestMember ∧
        (codec.pack m.content).length ≤ Zip.largestMember) ∧
      archive = Zip.writeWith codec (Stamp.ofSetting epoch) plan.members := by
  rw [← Plan.archiveWith_eq_ok_iff]
  have hp := ends_packWith (m := w.machine) (d := w.disk) codec plan epoch
  constructor
  · rintro ⟨w', h⟩
    have he := hp.eq_of_run (k := fun d => (plan.archiveWith codec epoch, d)) h
    exact congrArg Prod.fst he
  · intro h
    obtain ⟨journal, hr⟩ := hp.exists_run w.journal
    rw [h] at hr
    exact ⟨_, hr⟩

/-- With texts of ordinary length and a frugal codec there is an archive unless the program is too
large. -/
theorem BuildRequest.archiveWith_plan {request : BuildRequest} {name : String} {payload : Bytes}
    {codec : Zip.Codec} (hc : codec.IsFrugal) (hr : request.extent name ≤ 10000000)
    (hp : payload.length ≤ Zip.largestMember)
    (hpack : (codec.pack payload).length ≤ Zip.largestMember) (epoch : Option Int) :
    (request.plan name payload).archiveWith codec epoch =
      .ok (Zip.writeWith codec (Stamp.ofSetting epoch) (request.plan name payload).members) :=
  Plan.archiveWith_eq_ok_iff.2 ⟨fun _ => length_le_of_mem_plan hc hr hp hpack, rfl⟩

/-- A wheel's name ends in the last letter of its extension. -/
theorem BuildRequest.getLast?_filename (request : BuildRequest) :
    (Utf8.encode request.filename).getLast? = some 0x6C := by
  have he : Utf8.encode request.filename = _ ++ Utf8.encode ".whl" := Utf8.encode_append _ _
  rw [he, List.getLast?_append]
  rfl

/-- A wheel's name is none that ends otherwise. -/
theorem BuildRequest.bytes_filename_ne (request : BuildRequest) {name : Name}
    (h : name.getLast? ≠ some 0x6C) : (Path.ofString request.filename).bytes ≠ name := by
  rintro rfl
  rw [Path.bytes_ofString, request.getLast?_filename] at h
  exact h rfl

/-- The path of a wheel whose name has no slash has that name more than the output directory. -/
theorem BuildRequest.names_wheelPath {request : BuildRequest} (h : '/' ∉ request.filename.toList) :
    request.wheelPath.names = request.outputDir.names ++ [Utf8.encode request.filename] := by
  have hs : Path.slash ∉ (Path.ofString request.filename).bytes := by rwa [Path.slash_mem_ofString]
  rw [wheelPath, Path.names_join _ hs (request.bytes_filename_ne (by decide)), Path.bytes_ofString]

namespace Disk

/-- The archive was put at the place `t`: `d` is the disk before, `mid` the disk once the
directories are there, `e` the disk after. -/
structure Delivered (request : BuildRequest) (archive : Bytes) (d mid e : Disk) (t : Location) :
    Prop where
  /-- Only the directories on the way to the output directory were made before. -/
  grown : Grown request.outputDir d mid
  /-- The wheel's path points to the place. -/
  place : mid.slot request.wheelPath .busy = .ok t
  /-- No directory stands there, so that there is a file or a link to replace, or nothing. -/
  replaceable : ¬mid.hasDirectory t
  /-- The wheel stands there in the end. -/
  wheel : e.node? t = some (.file Build.wheelMode archive)
  /-- Everywhere else all is as it was. -/
  elsewhere : ∀ l, l ≠ t → e.node? l = mid.node? l
  workingDirectory : e.workingDirectory = mid.workingDirectory

namespace Delivered

variable {request : BuildRequest} {archive : Bytes} {d mid e : Disk} {t : Location}

/-- What is replaced is what stood there before the directories were made. -/
theorem node?_mid (h : Delivered request archive d mid e t) : mid.node? t = d.node? t := by
  cases hd : d.node? t with
  | some n => exact h.grown.kept t n hd
  | none =>
    cases hm : mid.node? t with
    | none => rfl
    | some n =>
      obtain ⟨rfl, -⟩ := h.grown.new t n hd hm
      exact absurd (hasDirectory_iff.2 ⟨_, hm, rfl⟩) h.replaceable

/-- A path points to the same place afterwards as it does without what the wheel replaced. -/
theorem slot_iff (h : Delivered request archive d mid e t) {p : Path} {odd : OsError}
    {l : Location} : e.slot p odd = .ok l ↔ (mid.drop t).slot p odd = .ok l := by
  constructor
  · intro hs
    refine slot_transfer hs h.workingDirectory.symm ?_
    intro x n hx hn
    have hne : x ≠ t := by
      rintro rfl
      rw [h.wheel] at hx
      cases hx
      rcases hn with hn | hn <;> cases hn
    rw [node?_drop_of_ne _ hne, ← h.elsewhere x hne, hx]
  · intro hs
    refine slot_transfer hs h.workingDirectory ?_
    intro x n hx _
    have hne : x ≠ t := by
      rintro rfl
      rw [node?_drop_self] at hx
      cases hx
    rw [node?_drop_of_ne _ hne] at hx
    rw [h.elsewhere x hne, hx]

/-- If no link was replaced, the wheel's path points to the wheel afterwards. -/
theorem slot_of_no_link (h : Delivered request archive d mid e t)
    (hl : ∀ target, d.node? t ≠ some (.link target)) : e.slot request.wheelPath .busy = .ok t := by
  apply h.slot_iff.2
  refine slot_transfer h.place rfl ?_
  intro x n hx hn
  have hne : x ≠ t := by
    rintro rfl
    rcases hn with hn | hn
    · exact h.replaceable (hasDirectory_iff.2 ⟨n, hx, hn⟩)
    · obtain ⟨target, rfl⟩ := Node.eq_link_of_isLink (n := n) (by simp [hn])
      exact hl target (h.node?_mid.symm.trans hx)
  rw [node?_drop_of_ne _ hne, hx]

end Delivered

variable {request : BuildRequest} {epoch : Option Int} {codec : Zip.Codec} {archive : Bytes}
  {d mid e : Disk}

/-- What is put in its place is delivered. -/
theorem exists_delivered_of_persist (hm : d.makeDirectories request.outputDir = (.ok (), mid))
    (h : mid.persist request.outputDir request.wheelPath archive = (.ok (), e)) :
    ∃ t, Delivered request archive d mid e t := by
  have hg := grown_makeDirectories request.outputDir d
  rw [hm] at hg
  obtain ⟨t, ht, hd, hs⟩ := exists_of_persist_ok h
  refine ⟨t, hg, ht, hd, ?_, fun l hl => ?_, hs.1⟩
  · rw [hs.2 t, node?_put_self]
  · rw [hs.2 l, node?_put_of_ne _ hl]

/-- A wheel's path ends as its name does. -/
theorem getLast?_wheelPath (request : BuildRequest) :
    request.wheelPath.bytes.getLast? = some 0x6C := by
  obtain ⟨front, hf⟩ := Path.isSuffix_join request.outputDir (.ofString request.filename)
  rw [BuildRequest.wheelPath, ← hf, Path.ofString, List.getLast?_append,
    request.getLast?_filename]
  rfl

theorem endsInSlash_wheelPath (request : BuildRequest) : request.wheelPath.endsInSlash = false := by
  rw [Path.endsInSlash, getLast?_wheelPath]
  rfl

namespace Delivered

variable {t : Location}

/-- The wheel's path points nowhere else afterwards. -/
theorem eq_of_slot (h : Delivered request archive d mid e t) {l : Location}
    (hs : e.slot request.wheelPath .busy = .ok l) : l = t := by
  have hm : mid.slot request.wheelPath .busy = .ok l := by
    refine slot_transfer (h.slot_iff.1 hs) rfl ?_
    intro x n hx _
    have hne : x ≠ t := by
      rintro rfl
      rw [node?_drop_self] at hx
      cases hx
    rwa [node?_drop_of_ne _ hne] at hx
  exact Except.ok.inj (hm.symm.trans h.place)

/-- The wheel's path leads to the wheel afterwards, if it does not need what the wheel replaced, and
otherwise it leads nowhere. -/
theorem find?_eq_ok_iff (h : Delivered request archive d mid e t) {n : Node} :
    e.find? request.wheelPath = .ok n ↔
      n = .file Build.wheelMode archive ∧
        (mid.drop t).slot request.wheelPath .busy = .ok t := by
  have hlocate : e.slot request.wheelPath .busy = .ok t → e.locate request.wheelPath = .ok t := by
    intro hs
    apply locate_of_slot hs h.wheel rfl
    rw [endsInSlash_wheelPath]
    exact nofun
  rw [Disk.find?_eq_ok_iff, ← h.slot_iff]
  constructor
  · rintro ⟨l, hl, hn⟩
    obtain ⟨-, name, here, hlast, hp, -, -⟩ := slot_eq_ok_iff.1 h.place
    obtain ⟨m, hm⟩ :=
      exists_slot_of_locate .busy hl (endsInSlash_wheelPath request) hlast hp
    obtain rfl := h.eq_of_slot hm
    cases hl.symm.trans (hlocate hm)
    exact ⟨Option.some.inj (hn.symm.trans h.wheel), hm⟩
  · rintro ⟨rfl, hs⟩
    exact ⟨t, hlocate hs, h.wheel⟩

end Delivered

/-- A build succeeds if the program can be read, the texts are of ordinary length, the codec is
frugal, the directories can be made, something can be staged, and no directory stands in the wheel's
place. -/
theorem exists_build_ok (request : BuildRequest) (d : Disk) {payload : Bytes} {name : String}
    {t : Location} (hp : d.program request.binary = .ok payload)
    (hn : Build.binaryName request.binary = .ok name) (hc : codec.IsFrugal)
    (hx : request.extent name ≤ 10000000) (hl : payload.length ≤ Zip.largestMember)
    (hk : (codec.pack payload).length ≤ Zip.largestMember)
    (hm : d.makeDirectories request.outputDir = (.ok (), mid))
    (hs : (mid.stage request.outputDir).isOk = true)
    (hz : request.wheelPath.bytes.contains 0 = false)
    (ht : mid.slot request.wheelPath .busy = .ok t) (hd : mid.hasDirectory t = false)
    (epoch : Option Int) :
    ∃ built e, d.build request epoch codec = (.ok built, e) ∧ Delivered request
      (Zip.writeWith codec (Stamp.ofSetting epoch) (request.plan name payload).members)
      d mid e t := by
  have ha := BuildRequest.archiveWith_plan hc hx hl hk epoch
  have hpack := BuildRequest.packed_eq_ok_iff.2 ⟨payload, name, hp, hn, rfl, ha⟩
  cases hst : mid.stage request.outputDir with
  | error cause =>
    rw [hst] at hs
    cases hs
  | ok staged =>
    have hlast : request.wheelPath.bytes.getLast? ≠ some Path.slash := by
      rw [getLast?_wheelPath]
      decide
    obtain ⟨e, he⟩ := exists_persist_ok hst hz hlast ht (by simp [hd])
      (Zip.writeWith codec (Stamp.ofSetting epoch) (request.plan name payload).members)
    obtain ⟨t', hdel⟩ := exists_delivered_of_persist hm he
    cases hdel.place.symm.trans ht
    exact ⟨_, e, build_eq_ok hpack hm he, hdel⟩

end Disk

/-- A build that succeeds has read the program as it was before, and has delivered the archive of
its layout. The wheel's path points to the wheel afterwards exactly if it does not need what the
wheel replaced, and so it always does if no link was replaced. -/
theorem exists_delivered_of_build {request : BuildRequest} {epoch : Option Int}
    {codec : Zip.Codec} {w w' : World} {built : BuiltWheel}
    (h : (build (m := Simulation) request epoch codec).run.run w = (.ok built, w')) :
    ∃ payload name mid t,
      w.disk.isRegularFile request.binary = true ∧ w.disk.read request.binary = .ok payload ∧
      Build.binaryName request.binary = .ok name ∧
      Disk.Delivered request
        (Zip.writeWith codec (Stamp.ofSetting epoch) (request.plan name payload).members)
        w.disk mid w'.disk t ∧
      (w'.disk.slot request.wheelPath .busy = .ok t ↔
        (mid.drop t).slot request.wheelPath .busy = .ok t) ∧
      ((∀ target, w.disk.node? t ≠ some (.link target)) →
        w'.disk.slot request.wheelPath .busy = .ok t) := by
  obtain ⟨plan, archive, mid, hp, -, hm, hw⟩ := Disk.exists_of_build_ok (Disk.build_eq_of_run h)
  obtain ⟨payload, name, hr, hn, rfl, ha⟩ := BuildRequest.packed_eq_ok_iff.1 hp
  obtain ⟨hf, hr⟩ := Disk.program_eq_ok_iff.1 hr
  obtain ⟨-, rfl⟩ := Plan.archiveWith_eq_ok_iff.1 ha
  obtain ⟨t, ht⟩ := Disk.exists_delivered_of_persist hm hw
  exact ⟨payload, name, mid, t, hf, hr, hn, ht, ht.slot_iff, ht.slot_of_no_link⟩

/-! ## A link in the wheel's place -/

namespace Crossing

/-- A directory. -/
def folder (children : List (Name × Place)) : Place := ⟨some (.directory 0o755), children⟩

/-- A program `t`, and in the directory `out` a link to another directory where a wheel is to go. -/
def disk : Disk where
  root := folder [(Utf8.encode "t", ⟨some (.file 0o755 [0x7F]), []⟩),
    (Utf8.encode "out", folder [(Utf8.encode "sub", folder []),
      (Utf8.encode "x-1-py3-none-win_amd64.whl", ⟨some (.link (.ofString "sub")), []⟩)])]
  workingDirectory := []

/-- A world with that disk. -/
def world : World := ⟨⟨"linux", "x86_64"⟩, disk, []⟩

/-- A request for that wheel. -/
def request (outputDir : String) : BuildRequest where
  name := "x"
  version := "1"
  binary := .ofString "t"
  platform := ⟨"win_amd64"⟩
  entryPoint := none
  description := none
  author := none
  license := none
  url := none
  longDescription := none
  outputDir := .ofString outputDir

/-- The wheel is to go where the link stands. -/
def inside : BuildRequest := request "out"

/-- So it is, by a path that goes through the link. -/
def through : BuildRequest := request "out/x-1-py3-none-win_amd64.whl/.."

/-- Where the link stands. -/
def place : Location := [Utf8.encode "x-1-py3-none-win_amd64.whl", Utf8.encode "out"]

/-- The disk when the directories are there. -/
def ready (r : BuildRequest) : Disk := (disk.makeDirectories r.outputDir).2

/-- Both builds succeed, and both replace the link. -/
theorem exists_run_ok {r : BuildRequest} (h : r = inside ∨ r = through) :
    ∃ built w', (build (m := Simulation) r none Zip.stored).run.run world = (.ok built, w') ∧
      Disk.Delivered r
        (Zip.writeWith Zip.stored (Stamp.ofSetting none) (r.plan "t" [0x7F]).members) disk
        (ready r) w'.disk place := by
  have hp : disk.program r.binary = .ok [0x7F] := by
    rcases h with rfl | rfl <;> decide +kernel
  have hn : Build.binaryName r.binary = .ok "t" := by
    rcases h with rfl | rfl <;> decide +kernel
  have hx : r.extent "t" ≤ 10000000 := by
    rcases h with rfl | rfl <;> decide +kernel
  have hl : [(0x7F : UInt8)].length ≤ Zip.largestMember := by decide
  have hk : (Zip.stored.pack [0x7F]).length ≤ Zip.largestMember := by decide
  have hm : disk.makeDirectories r.outputDir = (.ok (), ready r) := by
    refine Prod.ext ?_ rfl
    rcases h with rfl | rfl <;> decide +kernel
  have hs : ((ready r).stage r.outputDir).isOk = true := by
    rcases h with rfl | rfl <;> decide +kernel
  have hz : r.wheelPath.bytes.contains 0 = false := by
    rcases h with rfl | rfl <;> decide +kernel
  have ht : (ready r).slot r.wheelPath .busy = .ok place := by
    rcases h with rfl | rfl <;> decide +kernel
  have hd : (ready r).hasDirectory place = false := by
    rcases h with rfl | rfl <;> decide +kernel
  obtain ⟨built, e, hb, hd⟩ :=
    Disk.exists_build_ok r disk hp hn Zip.isFrugal_stored hx hl hk hm hs hz ht hd none
  obtain ⟨w', hr, rfl⟩ := Disk.exists_run_build (w := world) hb
  exact ⟨built, w', hr, hd⟩

end Crossing

/-- The link is replaced, and the wheel's path points to the wheel. -/
theorem exists_delivered_inside : ∃ built w',
    (build (m := Simulation) Crossing.inside none Zip.stored).run.run Crossing.world =
        (.ok built, w') ∧
      ∃ payload name mid t,
        Crossing.disk.isRegularFile Crossing.inside.binary = true ∧
        Crossing.disk.read Crossing.inside.binary = .ok payload ∧
        Build.binaryName Crossing.inside.binary = .ok name ∧
        Disk.Delivered Crossing.inside
          (Zip.writeWith Zip.stored (Stamp.ofSetting none)
            (Crossing.inside.plan name payload).members)
          Crossing.disk mid w'.disk t ∧
        (w'.disk.slot Crossing.inside.wheelPath .busy = .ok t ↔
          (mid.drop t).slot Crossing.inside.wheelPath .busy = .ok t) ∧
        ((∀ target, Crossing.disk.node? t ≠ some (.link target)) →
          w'.disk.slot Crossing.inside.wheelPath .busy = .ok t) := by
  obtain ⟨built, w', hr, -⟩ := Crossing.exists_run_ok (.inl rfl)
  exact ⟨built, w', hr, exists_delivered_of_build hr⟩

/-- The link is replaced, and the wheel's path, which went through it, points nowhere. -/
theorem wheelPath_lost_through : ∃ built w',
    (build (m := Simulation) Crossing.through none Zip.stored).run.run Crossing.world =
        (.ok built, w') ∧
      ∀ l, w'.disk.slot Crossing.through.wheelPath .busy ≠ .ok l := by
  obtain ⟨built, w', hr, hd⟩ := Crossing.exists_run_ok (.inr rfl)
  refine ⟨built, w', hr, fun l hl => ?_⟩
  have hn : ((Crossing.ready Crossing.through).drop Crossing.place).slot
      Crossing.through.wheelPath .busy = .error (.os .noEntry) := by decide +kernel
  rw [hd.slot_iff, hn] at hl
  cases hl

end Wheelwright
