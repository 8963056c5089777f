import Wheelwright.Proofs.Wheel.Unpacking
import Wheelwright.Proofs.Wrap.Destination
import Wheelwright.Proofs.Wrap.Reproducible
/-!
# What a run reports

A run that succeeds tells where the wheel is, how large it is, what its digest is, for which
platform it is and which members it has (`Outcome.Reports`). The main statement is `reported_wrap`:
all of it is so of the file that the run leaves on the disk, as a reader of archives finds it there.
Only the path needs care: a wheel that has replaced a link is no longer where its path went through
the link (`wheel_lost_through`).
-/

namespace Wheelwright

/-! ## The digest in short -/

namespace Hex

/-- Every digit takes one byte. -/
theorem length_encodeChar_of_mem_encode {bs : Bytes} {c : Char} (h : c ∈ encode bs) :
    (Utf8.encodeChar c).length = 1 := by
  have hall : digits.all (fun c => (Utf8.encodeChar c).length == 1) = true := by decide +kernel
  exact eq_of_beq (List.all_eq_true.1 hall c (mem_digits_of_mem_encode h))

end Hex

/-- Of characters that take one byte each, as many are taken as there are bytes to take. -/
theorem takeBytes?_eq_some {n : Nat} {cs : List Char}
    (h : ∀ c ∈ cs, (Utf8.encodeChar c).length = 1) (hn : n ≤ cs.length) :
    takeBytes? n cs = some (cs.take n) := by
  induction n generalizing cs with
  | zero => cases cs <;> rfl
  | succ n ih =>
    cases cs with
    | nil => exact absurd hn (Nat.not_succ_le_zero n)
    | cons c cs =>
      have hc := h c List.mem_cons_self
      have hcs := ih (fun x hx => h x (List.mem_cons_of_mem c hx)) (Nat.le_of_succ_le_succ hn)
      simp [takeBytes?, hc, hcs]

/-- A digest in short is its first twelve digits. -/
theorem shortDigest_hexDigest (content : Bytes) : shortDigest (hexDigest content) =
    String.ofList ((Hex.encode (Sha256.digest content)).take 12) := by
  have hl : 12 ≤ (Hex.encode (Sha256.digest content)).length := by
    rw [Hex.length_encode, Sha256.length_digest]
    decide
  rw [shortDigest, hexDigest, String.toList_ofList,
    takeBytes?_eq_some (fun c => Hex.length_encodeChar_of_mem_encode) hl]

/-! ## What is reported -/

/-- The outcome tells of a wheel: by which path it is to be found, which archive it is, for which
platform, and with which members. -/
structure Outcome.Reports (o : Outcome) (wheel : String) (archive : Bytes) (tag : String)
    (entries : List String) : Prop where
  path : o.details.field? "wheel" = some (.string wheel)
  bytes : o.details.field? "bytes" = some (.integer archive.length)
  sha256 : o.details.field? "sha256" =
    some (.string (String.ofList (Hex.encode (Sha256.digest archive))))
  platform : o.details.field? "platform_tag" = some (.string tag)
  members : o.details.field? "entries" = some (.ofTexts entries)
  text : o.message = "wrote " ++ wheel ++ " (" ++ formatSize archive.length ++ ", sha256=" ++
    String.ofList ((Hex.encode (Sha256.digest archive)).take 12) ++ "…)"

theorem BuildRequest.path_built (r : BuildRequest) (plan : Plan) (archive : Bytes) :
    (r.built plan archive).path = r.wheelPath := by
  rw [built]

theorem Wrap.wheel_successOutcome (settled : BuildRequest) (built : BuiltWheel) :
    (successOutcome settled built).details.field? "wheel" =
      some (.string built.path.display) := by
  rw [successOutcome, Json.field?_ofFields]
  rfl

theorem Wrap.reports_successOutcome (settled : BuildRequest) (plan : Plan) (archive : Bytes) :
    (successOutcome settled (settled.built plan archive)).Reports settled.wheelPath.display archive
      settled.platform.text plan.entries := by
  have hf : ∀ field ∈ archiveFields settled.platform plan.entries archive, _ :=
    fun field => field?_successOutcome settled plan archive
  simp only [archiveFields, List.forall_mem_cons] at hf
  obtain ⟨hbytes, hsha256, hplatform, hmembers, -⟩ := hf
  constructor
  case path => rw [wheel_successOutcome, BuildRequest.path_built]
  case bytes => exact hbytes
  case sha256 => exact hsha256
  case platform => exact hplatform
  case members => exact hmembers
  case text => simp only [successOutcome, BuildRequest.built, shortDigest_hexDigest]

/-! ## What was packed -/

/-- A path whose file was read is not too long. -/
theorem Disk.length_le_of_read {d : Disk} {p : Path} {content : Bytes}
    (h : d.read p = .ok content) : p.bytes.length ≤ longestPath := by
  cases hf : d.find? p with
  | error cause =>
    rw [read, hf] at h
    cases h
  | ok n =>
    obtain ⟨l, hl, -⟩ := find?_eq_ok_iff.1 hf
    exact length_le_of_vet (locate_eq_ok_iff.1 hl).1

/-- What was delivered had names that a disk can hold. -/
theorem Disk.Delivered.packed {r : BuildRequest} {name : String} {payload archive : Bytes}
    {epoch : Option Int} {codec : Zip.Codec} {d mid e : Disk} {t : Location}
    (hd : Delivered r archive d mid e t) (hr : d.read r.binary = .ok payload)
    (hn : Build.binaryName r.binary = .ok name)
    (ha : (r.plan name payload).archiveWith codec epoch = .ok archive) :
    r.Packed name payload epoch codec archive where
  filename_le := by
    have hs := (Path.isSuffix_join r.outputDir (.ofString r.filename)).length_le
    have hv := length_le_of_vet (slot_eq_ok_iff.1 hd.place).1
    rw [Path.bytes_ofString] at hs
    exact Nat.le_trans hs hv
  program_le := by
    obtain ⟨bytes, hf, hb⟩ := Build.binaryName_eq_ok_iff.1 hn
    have hp := Path.length_le_of_mem_names (Path.mem_names_of_fileName? hf).1
    rw [Utf8.decode?_eq_some_iff.1 hb]
    exact Nat.le_trans hp (length_le_of_read hr)
  archive_ok := ha

/-- A wheel's name ends in its platform's tag. -/
theorem BuildRequest.filename_eq_append_tag (r : BuildRequest) : ∃ stem,
    r.filename = stem ++ "-" ++ r.platform.text ++ ".whl" := by
  have hp : "py3-none-" = "py3-none" ++ "-" := by decide
  refine ⟨r.module ++ "-" ++ r.version ++ "-" ++ "py3-none", ?_⟩
  rw [filename, wheelFilename, PlatformTag.triple, hp]
  simp only [String.append_assoc]

/-- A run that succeeds reports the wheel as it is: its archive has that many bytes and that digest,
and a reader finds those members in it, in that order, which is also that of its manifest's rows,
and that tag, which also ends the wheel's name. Only a codec that wastes room could keep the reader
from the manifest and the tag. The path that is reported leads to the wheel, unless it needs the
link that the wheel replaced; then it leads nowhere. -/
theorem reported_wrap {config : Config} {request : WrapRequest} {codec : Zip.Codec} {w w' : World}
    {o : Outcome} {dir : String}
    (hdir : Utf8.decode? (request.directory config).bytes = some dir)
    (h : (wrap (m := Simulation) config request codec).run w = (o, w')) (ho : o.status = .ok) :
    ∃ settled archive entries wheel stem mid t,
      request.settled config w.machine w.disk = .ok settled ∧
      o.Reports wheel archive settled.platform.text entries ∧
      Zip.names? archive = some entries ∧
      (codec.IsFrugal →
        Zip.Unpacks codec archive settled.distInfo settled.platform.text entries) ∧
      Path.ofString wheel = (request.directory config).join (.ofString settled.filename) ∧
      settled.filename = stem ++ "-" ++ settled.platform.text ++ ".whl" ∧
      '-' ∉ settled.platform.text.toList ∧
      Disk.Delivered settled archive w.disk mid w'.disk t ∧
      (∀ n, w'.disk.find? (.ofString wheel) = .ok n ↔
        n = .file Build.wheelMode archive ∧
          (mid.drop t).slot (.ofString wheel) .busy = .ok t) ∧
      ((∀ target, w.disk.node? t ≠ some (.link target)) →
        w'.disk.find? (.ofString wheel) = .ok (.file Build.wheelMode archive)) := by
  obtain ⟨settled, payload, name, archive, mid, t, hs, hr, hn, ha, hd, rfl⟩ :=
    Disk.exists_archive_of_wrap_ok (Disk.wrap_eq_of_run h) ho
  obtain ⟨tag, longDescription, ht, -, he⟩ := WrapRequest.settled_eq_ok_iff.1 hs
  have hplatform : settled.platform = tag := by rw [he, WrapRequest.settle]
  have houtput : settled.outputDir = request.directory config := by rw [he, WrapRequest.settle]
  -- a tag has none of the characters that would cut the wheel's name or a line
  have hfree : ∀ c, Platform.isTagChar c = false → c ∉ settled.platform.text.toList := by
    intro c hc
    rw [hplatform]
    exact PlatformChoice.not_mem_tag hc ht
  obtain ⟨stem, hstem⟩ := settled.filename_eq_append_tag
  obtain ⟨front, hfront⟩ := Path.exists_join_ofString dir settled.filename
  have hwheel : settled.wheelPath = .ofString (front ++ settled.filename) := by
    rw [BuildRequest.wheelPath, houtput, Path.eq_ofString_of_decode? hdir, hfront]
  have hreports := Wrap.reports_successOutcome settled (settled.plan name payload) archive
  rw [hwheel, Path.display_ofString] at hreports
  have hfind := fun n => hd.find?_eq_ok_iff (n := n)
  have hslot := hd.slot_of_no_link
  rw [hwheel] at hfind hslot
  have hpacked := hd.packed hr hn ha
  refine ⟨settled, archive, _, front ++ settled.filename, stem, mid, t, hs, hreports,
    hpacked.names?_eq, fun hc => hpacked.unpacks hc (hfree _ (by decide)), ?_, hstem,
    hfree _ (by decide), hd, hfind, fun hl => (hfind _).2 ⟨rfl, hd.slot_iff.1 (hslot hl)⟩⟩
  rw [← hwheel, BuildRequest.wheelPath, houtput]

/-! ## A link in the wheel's place -/

namespace Crossing

/-- A request for the wheel, with the output directory as it is said. -/
def asked (outputDir : String) : WrapRequest where
  name := "x"
  version := "1"
  binary := .ofString "t"
  platform := .explicit "win_amd64"
  outputDir := some (.ofString outputDir)
  entryPoint := none
  description := none
  author := none
  license := none
  url := none
  longDescription := none

/-- Both runs succeed, and both replace the link. -/
theorem exists_run_wrap_ok (dir : String) (h : request dir = inside ∨ request dir = through) :
    ∃ o w', (wrap (m := Simulation) Nested.config (asked dir) Zip.stored).run world = (o, w') ∧
      o.status = .ok ∧
      o.details.field? "wheel" = some (.string (request dir).wheelPath.display) ∧
      ∃ archive, Disk.Delivered (request dir) archive disk (ready (request dir)) w'.disk place := by
  have hl : Wrap.lacksName (asked dir) = false := by
    have hx : Text.isBlank "x" = false := by decide
    have h1 : Text.isBlank "1" = false := by decide
    rw [Wrap.lacksName, asked, hx, h1]
    rfl
  have hs : (asked dir).settled Nested.config world.machine world.disk = .ok (request dir) := rfl
  obtain ⟨built, w', hr, hd⟩ := exists_run_ok h
  have hb := Disk.build_eq_of_run hr
  obtain ⟨plan, archive, mid, -, rfl, -⟩ := Disk.exists_of_build_ok hb
  obtain ⟨w'', hw, he⟩ := Disk.exists_run_wrap_ok hl hs hb
  refine ⟨_, w'', hw, rfl, ?_, _, he ▸ hd⟩
  rw [Wrap.wheel_successOutcome, BuildRequest.path_built]

end Crossing

/-- The wheel replaces a link and is found by the path that is reported. -/
theorem reported_wrap_inside : ∃ o w',
    (wrap (m := Simulation) Nested.config (Crossing.asked "out") Zip.stored).run Crossing.world =
        (o, w') ∧
      o.status = .ok ∧
      Utf8.decode? ((Crossing.asked "out").directory Nested.config).bytes = some "out" ∧
      ∃ settled archive entries wheel stem mid t,
        (Crossing.asked "out").settled Nested.config Crossing.world.machine Crossing.world.disk =
          .ok settled ∧
        o.Reports wheel archive settled.platform.text entries ∧
        Zip.names? archive = some entries ∧
        (Zip.stored.IsFrugal →
          Zip.Unpacks Zip.stored archive settled.distInfo settled.platform.text entries) ∧
        Path.ofString wheel = ((Crossing.asked "out").directory Nested.config).join
          (.ofString settled.filename) ∧
        settled.filename = stem ++ "-" ++ settled.platform.text ++ ".whl" ∧
        '-' ∉ settled.platform.text.toList ∧
        Disk.Delivered settled archive Crossing.world.disk mid w'.disk t ∧
        (∀ n, w'.disk.find? (.ofString wheel) = .ok n ↔
          n = .file Build.wheelMode archive ∧
            (mid.drop t).slot (.ofString wheel) .busy = .ok t) ∧
        ((∀ target, Crossing.world.disk.node? t ≠ some (.link target)) →
          w'.disk.find? (.ofString wheel) = .ok (.file Build.wheelMode archive)) := by
  obtain ⟨o, w', hr, ho, -⟩ := Crossing.exists_run_wrap_ok "out" (.inl rfl)
  have hdir : Utf8.decode? ((Crossing.asked "out").directory Nested.config).bytes = some "out" :=
    Utf8.decode?_encode "out"
  exact ⟨o, w', hr, ho, hdir, reported_wrap hdir hr ho⟩

/-- The wheel replaces a link, and the path that is reported, which went through it, leads
nowhere. -/
theorem wheel_lost_through : ∃ o w' dir wheel,
    (wrap (m := Simulation) Nested.config (Crossing.asked dir) Zip.stored).run Crossing.world =
        (o, w') ∧
      o.status = .ok ∧
      Utf8.decode? ((Crossing.asked dir).directory Nested.config).bytes = some dir ∧
      o.details.field? "wheel" = some (.string wheel) ∧
      ∀ n, w'.disk.find? (.ofString wheel) ≠ .ok n := by
  obtain ⟨o, w', hr, ho, hwheel, archive, hd⟩ :=
    Crossing.exists_run_wrap_ok "out/x-1-py3-none-win_amd64.whl/.." (.inr rfl)
  have hpath : Crossing.through.wheelPath =
      .ofString "out/x-1-py3-none-win_amd64.whl/../x-1-py3-none-win_amd64.whl" := by decide +kernel
  have hlost : ((Crossing.ready Crossing.through).drop Crossing.place).slot
      Crossing.through.wheelPath .busy = .error (.os .noEntry) := by decide +kernel
  change o.details.field? "wheel" = some (.string Crossing.through.wheelPath.display) at hwheel
  rw [hpath, Path.display_ofString] at hwheel
  refine ⟨o, w', _, _, hr, ho, Utf8.decode?_encode _, hwheel, fun n hn => ?_⟩
  rw [← hpath] at hn
  have hslot := (hd.find?_eq_ok_iff.1 hn).2
  cases hlost.symm.trans hslot

end Wheelwright
