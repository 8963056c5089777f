import Wheelwright.Proofs.Build.Independence
/-!
# The name that a program is stored under

What a path ends in is read off its bytes, and whether it leads to a regular file is for the disk to
say, which follows links and takes a slash, a dot or two dots at the end for a directory. A path
that a program was read from ends in a name for both, and it is this name that is stored, not the
one that a link leads to. The main statement is `build_keeps_name`.
-/

namespace Wheelwright

/-- A program is read from a regular file, and there is nothing else that can be wrong with it. -/
theorem Disk.program_cases (d : Disk) (binary : Path) :
    d.program binary = .error (.binaryNotFound binary .notRegularFile) ∨
      ∃ mode content, d.find? binary = .ok (.file mode content) ∧
        d.program binary = .ok content := by
  by_cases hr : d.isRegularFile binary = true
  · obtain ⟨mode, content, hf⟩ := isRegularFile_iff.1 hr
    exact .inr ⟨mode, content, hf, program_eq_ok_iff.2 ⟨hr, by simp only [read, hf]⟩⟩
  · exact .inl (if_neg hr)

/-- A build of a program that was read ends in one of three ways: the name is no text, and nothing
was written; the name is text, and something else went wrong that the caller cannot mend; or the
wheel has the program under that name. -/
inductive Build.KeepsName (request : BuildRequest) (epoch : Option Int) (codec : Zip.Codec)
    (payload : Bytes) (name : Name) (d e : Disk) : Except BuildError BuiltWheel → Prop
  | refused (hd : Utf8.decode? name = none) (he : e = d) :
      KeepsName request epoch codec payload name d e
        (.error (.binaryNotFound request.binary .fileNameNotUtf8))
  | failed {text : String} {error : BuildError} (hd : Utf8.decode? name = some text)
      (hu : error.isUserError = false) :
      KeepsName request epoch codec payload name d e (.error error)
  | stored {text : String} {built : BuiltWheel} {mid : Disk} {t : Location}
      (hd : Utf8.decode? name = some text)
      (he : request.module ++ "/bin/" ++ text ∈ built.entries)
      (hw : Disk.Delivered request
        (Zip.writeWith codec (Stamp.ofSetting epoch) (request.plan text payload).members)
        d mid e t) :
      KeepsName request epoch codec payload name d e (.ok built)

/-- A build keeps the name of a program that is there. -/
theorem Build.exists_keepsName {request : BuildRequest} {epoch : Option Int} {codec : Zip.Codec}
    {d e : Disk} {r : Except BuildError BuiltWheel} {mode : Nat} {content : Bytes} (ht : d.IsTree)
    (hf : d.find? request.binary = .ok (.file mode content))
    (hp : d.program request.binary = .ok content) (h : d.build request epoch codec = (r, e)) :
    ∃ name, request.binary.fileName? = some name ∧ request.binary.pieces.getLast? = some name ∧
      KeepsName request epoch codec content name d e r := by
  obtain ⟨name, hname, hlast⟩ := Disk.exists_fileName_of_file ht hf
  refine ⟨name, hname, hlast, ?_⟩
  cases hd : Utf8.decode? name with
  | none =>
    have hn : binaryName request.binary =
        .error (.binaryNotFound request.binary .fileNameNotUtf8) := by
      simp only [binaryName, hname, hd]
    cases (Disk.build_of_binaryName_error hp hn epoch codec).symm.trans h
    exact .refused hd rfl
  | some text =>
    have hn : binaryName request.binary = .ok text := binaryName_eq_ok_iff.2 ⟨name, hname, hd⟩
    cases r with
    | error error => exact .failed hd (Disk.isUserError_of_build_error hp hn h)
    | ok built =>
      obtain ⟨plan, archive, mid, hpack, rfl, hm, hw⟩ := Disk.exists_of_build_ok h
      obtain ⟨payload, text', hp', hn', rfl, ha⟩ := BuildRequest.packed_eq_ok_iff.1 hpack
      cases hp.symm.trans hp'
      cases hn.symm.trans hn'
      obtain ⟨-, rfl⟩ := Plan.archiveWith_eq_ok_iff.1 ha
      obtain ⟨t, hdel⟩ := Disk.exists_delivered_of_persist hm hw
      exact .stored hd (by simp [BuildRequest.built, BuildRequest.plan, Plan.entries,
        BuildRequest.listed]) hdel

/-- On a disk that is a tree no build fails for want of a name. A program that was read is stored
under what its path has behind the last slash, which is its file name; if that is no text, the build
is refused for it and writes nothing, and otherwise only what the caller cannot mend goes wrong. -/
theorem build_keeps_name {request : BuildRequest} {epoch : Option Int} {codec : Zip.Codec}
    {w w' : World} {r : Except BuildError BuiltWheel} (ht : w.disk.IsTree)
    (h : (build (m := Simulation) request epoch codec).run.run w = (r, w')) :
    (∀ binary, r ≠ .error (.binaryNotFound binary .noFileName)) ∧
      ∀ payload w₁,
        (Build.readBinary (m := Simulation) request.binary).run.run w = (.ok payload, w₁) →
        ∃ name, request.binary.fileName? = some name ∧ Path.slash ∉ name ∧
          (request.binary.bytes = name ∨
            ∃ front, request.binary.bytes = front ++ Path.slash :: name) ∧
          Build.KeepsName request epoch codec payload name w.disk w'.disk r := by
  have hb := Disk.build_eq_of_run h
  rcases w.disk.program_cases request.binary with hp | ⟨mode, content, hf, hp⟩
  · have hr : _ = r :=
      congrArg Prod.fst ((Disk.build_of_program_error hp epoch codec).symm.trans hb)
    refine ⟨fun binary => by simp [← hr], fun payload w₁ hread => ?_⟩
    have hr := (Build.ends_readBinary request.binary).eq_of_run
      (k := fun d => (d.program request.binary, d)) hread
    cases hp.symm.trans (congrArg Prod.fst hr)
  · obtain ⟨name, hname, hlast, hk⟩ := Build.exists_keepsName ht hf hp hb
    refine ⟨fun binary => ?_, fun payload w₁ hread => ?_⟩
    · rintro rfl
      cases hk with
      | failed _ hu => cases hu
    · have hr := (Build.ends_readBinary request.binary).eq_of_run
        (k := fun d => (d.program request.binary, d)) hread
      cases hp.symm.trans (congrArg Prod.fst hr)
      obtain ⟨hs, hbytes⟩ := Split.getLast?_pieces_iff.1 hlast
      exact ⟨name, hname, hs, hbytes, hk⟩

/-! ## A link to the program -/

namespace Neighbours

/-- The world in which, beside the programs, a link stands for one of them. -/
def linked : World := { world with
  disk := disk.put [Utf8.encode "latest"] (.link (.ofString "t")) }

theorem isTree_linked : linked.disk.IsTree :=
  isTree_disk.put (by decide +kernel) (by decide +kernel)

/-- A request for a wheel of the program that the link leads to. -/
def latest : BuildRequest := { older with binary := .ofString "out/.././latest" }

end Neighbours

/-- The program is stored as `latest`, although the link leads to `t`. -/
theorem build_keeps_name_latest : ∃ r w' w₁,
    (build (m := Simulation) Neighbours.latest none Zip.stored).run.run Neighbours.linked =
        (r, w') ∧
      (Build.readBinary (m := Simulation) Neighbours.latest.binary).run.run Neighbours.linked =
        (.ok [0x7F], w₁) ∧
      (∀ binary, r ≠ .error (.binaryNotFound binary .noFileName)) ∧
      ∃ name, Neighbours.latest.binary.fileName? = some name ∧ name = Utf8.encode "latest" ∧
        Path.slash ∉ name ∧
        (Neighbours.latest.binary.bytes = name ∨
          ∃ front, Neighbours.latest.binary.bytes = front ++ Path.slash :: name) ∧
        Build.KeepsName Neighbours.latest none Zip.stored [0x7F] name Neighbours.linked.disk
          w'.disk r := by
  rcases hb : (build (m := Simulation) Neighbours.latest none Zip.stored).run.run
    Neighbours.linked with ⟨r, w'⟩
  have hp : Neighbours.linked.disk.program Neighbours.latest.binary = .ok [0x7F] := by
    decide +kernel
  obtain ⟨journal, hread⟩ := (hp ▸ Build.ends_readBinary Neighbours.latest.binary).exists_run
    (m := Neighbours.linked.machine) (d := Neighbours.linked.disk) Neighbours.linked.journal
  obtain ⟨hne, hall⟩ := build_keeps_name Neighbours.isTree_linked hb
  obtain ⟨name, hname, hs, hbytes, hk⟩ := hall _ _ hread
  have hlatest : Neighbours.latest.binary.fileName? = some (Utf8.encode "latest") := by
    decide +kernel
  exact ⟨r, w', _, rfl, hread, hne, name, hname, Option.some.inj (hname.symm.trans hlatest), hs,
    hbytes, hk⟩

end Wheelwright
