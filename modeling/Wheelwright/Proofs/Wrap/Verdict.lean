import Mathlib.Data.List.TakeWhile
import Wheelwright.Proofs.Disk.FileName
import Wheelwright.Proofs.Platform.Resolution
import Wheelwright.Proofs.Wrap.Reproducible
/-!
# The first check that fails

A run checks its request in an order: that the package has a name and a version, that there is a tag
for the platform, that the long description can be read, that the program can be read and has a
name, and at last that the wheel can be written. `Wrap.Check.Fails` says of each check, without a
look at the others, when it fails. The main statement is `judged_wrap`: the outcome of every run is
that of the first check that fails, and success if none does.
-/

namespace Wheelwright

/-! ## What is checked -/

/-- There is no tag for the platform: the text is neither an alias nor a canonical tag, or the
machine is none of those that have one. -/
def PlatformChoice.IsUnknown (m : Machine) : PlatformChoice → Prop
  | .explicit input => input ∉ Platform.aliases.map (·.1) ∧ Platform.isCanonical input = false
  | .detect => (m.os, m.arch) ∉ Platform.hosts.map (·.1)

namespace Disk

/-- The file can be read, and it holds text. -/
def HasText (d : Disk) (file : Path) : Prop :=
  ∃ content text, d.read file = .ok content ∧ Utf8.decode? content = some text

/-- The path leads to a regular file, and the name that it ends in is text. -/
def HasProgram (d : Disk) (binary : Path) : Prop :=
  (∃ mode content, d.find? binary = .ok (.file mode content)) ∧
    ∃ name text, binary.fileName? = some name ∧ Utf8.decode? name = some text

/-- A wheel with a layout cannot be written: one of the four steps fails after those before it have
succeeded. -/
inductive Unwritable (d : Disk) (request : BuildRequest) (plan : Plan) (epoch : Option Int)
    (codec : Zip.Codec) : Prop
  /-- There is no archive of the layout. -/
  | pack {error : BuildError} (hp : plan.archiveWith codec epoch = .error error)
  /-- The output directory cannot be made. -/
  | makeDirectories {archive : Bytes} {cause : Fault} {e : Disk}
      (hp : plan.archiveWith codec epoch = .ok archive)
      (hm : d.makeDirectories request.outputDir = (.error cause, e))
  /-- Nothing can be staged in the output directory. -/
  | stage {archive : Bytes} {cause : Fault} {mid : Disk}
      (hp : plan.archiveWith codec epoch = .ok archive)
      (hm : d.makeDirectories request.outputDir = (.ok (), mid))
      (hs : mid.stage request.outputDir = .error cause)
  /-- What was staged cannot be renamed to the wheel. -/
  | publish {archive : Bytes} {cause : Fault} {mid e : Disk} {staged : Location}
      (hp : plan.archiveWith codec epoch = .ok archive)
      (hm : d.makeDirectories request.outputDir = (.ok (), mid))
      (hs : mid.stage request.outputDir = .ok (staged, e))
      (hr : (e.filled staged archive Build.wheelMode).publish staged request.wheelPath =
        .error cause)

end Disk

namespace Wrap

/-- What a run checks. -/
inductive Check where
  | request
  | platform
  | readme
  | program
  | output
  deriving DecidableEq, Repr

namespace Check

/-- The place of the check in the order in which a run makes them. -/
def rank : Check → Nat
  | request => 0
  | platform => 1
  | readme => 2
  | program => 3
  | output => 4

/-- The code in the details of a run for which the check fails. -/
def reason : Check → String
  | request => "invalid_request"
  | platform => "invalid_platform"
  | readme => "readme_unreadable"
  | program => "binary_not_found"
  | output => "io_error"

/-- The status of a run for which the check fails: only the last one is not the caller's. -/
def status : Check → Status
  | output => .failure
  | _ => .userError

/-- What the process ends with in such a run. -/
def exitCode : Check → Nat
  | output => 2
  | _ => 1

/-- When a check fails, whatever the others say. -/
def Fails (config : Config) (request : WrapRequest) (codec : Zip.Codec) (w : World) : Check → Prop
  | .request =>
    Text.trimChars request.name.toList = [] ∨ Text.trimChars request.version.toList = []
  | platform => request.platform.IsUnknown w.machine
  | readme => ∃ file, request.longDescription = some (.readme file) ∧ ¬w.disk.HasText file
  | program => ¬w.disk.HasProgram request.binary
  | output => ∃ settled payload name,
      request.settled config w.machine w.disk = .ok settled ∧
      w.disk.read request.binary = .ok payload ∧ Build.binaryName request.binary = .ok name ∧
      w.disk.Unwritable settled (settled.plan name payload) config.epoch codec

/-- The check fails, and none before it does. -/
def IsFirst (config : Config) (request : WrapRequest) (codec : Zip.Codec) (w : World)
    (c : Check) : Prop :=
  Fails config request codec w c ∧ ∀ b : Check, b.rank < c.rank → ¬Fails config request codec w b

variable {config : Config} {request : WrapRequest} {codec : Zip.Codec} {w : World}

/-- If a check fails, there is a first one that does. -/
theorem exists_isFirst {c : Check} (h : Fails config request codec w c) :
    ∃ b, IsFirst config request codec w b := by
  induction hr : c.rank using Nat.strongRecOn generalizing c with
  | ind n ih =>
    by_cases hb : ∃ b : Check, b.rank < c.rank ∧ Fails config request codec w b
    · obtain ⟨b, hlt, hf⟩ := hb
      exact ih b.rank (hr ▸ hlt) hf rfl
    · exact ⟨c, h, fun b hlt hf => hb ⟨b, hlt, hf⟩⟩

end Check
end Wrap

/-- The check that an error belongs to. -/
def BuildError.check : BuildError → Wrap.Check
  | .platform _ => .platform
  | .binaryNotFound .. => .program
  | .readme .. => .readme
  | .io .. | .archive _ => .output

/-- The last check is the one that is not the caller's. -/
theorem BuildError.check_eq_output_iff {error : BuildError} :
    error.check = .output ↔ error.isUserError = false := by
  cases error <;> simp [check, isUserError]

/-! ## The checks and what is read -/

/-- Nothing is left of a text without its blank ends exactly if all of it is blank. -/
theorem Text.trimChars_eq_nil_iff {cs : List Char} :
    trimChars cs = [] ↔ cs.all isBlankChar = true := by
  unfold trimChars
  rw [List.reverse_eq_nil_iff, List.dropWhile_eq_nil_iff, List.all_eq_true]
  constructor
  · intro h c hc
    rw [← List.takeWhile_append_dropWhile (p := isBlankChar) (l := cs), List.mem_append] at hc
    rcases hc with hc | hc
    · exact List.mem_takeWhile_imp hc
    · exact h c (List.mem_reverse.2 hc)
  · intro h c hc
    exact h c ((List.dropWhile_suffix _).subset (List.mem_reverse.1 hc))

theorem Wrap.lacksName_iff {config : Config} {request : WrapRequest} {codec : Zip.Codec}
    {w : World} : lacksName request = true ↔ Check.Fails config request codec w .request := by
  unfold lacksName Text.isBlank Check.Fails
  rw [Bool.or_eq_true, Text.trimChars_eq_nil_iff, Text.trimChars_eq_nil_iff]

theorem PlatformChoice.isUnknown_iff {m : Machine} {choice : PlatformChoice} :
    choice.IsUnknown m ↔ ∃ error, choice.tag m = .error error := by
  cases choice with
  | explicit input => exact Platform.resolve_eq_error_iff.symm
  | detect =>
    unfold IsUnknown tag Platform.ofHost
    cases hl : Platform.hosts.lookup (m.os, m.arch) with
    | none =>
      rw [List.lookup_eq_none_iff] at hl
      simp only [Except.error.injEq, exists_eq', iff_true]
      intro hm
      obtain ⟨host, hh, he⟩ := List.mem_map.1 hm
      exact absurd he.symm (bne_iff_ne.1 (hl host hh))
    | some platform =>
      obtain ⟨front, back, hhosts, -⟩ := List.lookup_eq_some_iff.1 hl
      have hm : ((m.os, m.arch), platform) ∈ Platform.hosts := by simp [hhosts]
      obtain ⟨tag, ht⟩ := Platform.exists_resolve_of_mem_hosts _ hm
      dsimp only at ht ⊢
      rw [ht]
      simp only [reduceCtorEq, exists_false, iff_false, not_not]
      exact List.mem_map_of_mem (f := (·.1)) hm

namespace Disk

variable {d : Disk} {file binary : Path}

theorem exists_text (h : d.HasText file) : ∃ text, d.text file = .ok text := by
  obtain ⟨content, text, hr, hd⟩ := h
  exact ⟨text, by simp only [Disk.text, hr, hd]⟩

theorem text_of_not_hasText (h : ¬d.HasText file) :
    ∃ cause, d.text file = .error (.readme file cause) := by
  unfold Disk.text
  cases hr : d.read file with
  | error cause => exact ⟨cause, rfl⟩
  | ok content =>
    cases hd : Utf8.decode? content with
    | none => exact ⟨.contentNotUtf8, by simp only [hd]⟩
    | some text => exact absurd ⟨content, text, hr, hd⟩ h

/-- A long description cannot be read exactly if it is in a file that cannot be read. -/
theorem description_eq_error_iff {description : Option LongDescription} :
    (∃ error, d.description description = .error error) ↔
      ∃ file, description = some (.readme file) ∧ ¬d.HasText file := by
  match description with
  | none => simp [Disk.description]
  | some (.inline text) => simp [Disk.description]
  | some (.readme file) =>
    simp only [Disk.description, Option.some.injEq, LongDescription.readme.injEq,
      exists_eq_left']
    by_cases h : d.HasText file
    · obtain ⟨text, ht⟩ := exists_text h
      simp [ht, h, Except.map]
    · obtain ⟨cause, hc⟩ := text_of_not_hasText h
      simp [hc, h, Except.map]

theorem check_of_description_error {description : Option LongDescription} {error : BuildError}
    (h : d.description description = .error error) : error.check = .readme := by
  match description with
  | none => cases h
  | some (.inline text) => cases h
  | some (.readme file) =>
    by_cases ht : d.HasText file
    · obtain ⟨text, ht⟩ := exists_text ht
      rw [Disk.description, ht] at h
      cases h
    · obtain ⟨cause, hc⟩ := text_of_not_hasText ht
      rw [Disk.description, hc] at h
      cases h
      rfl

/-- The program at a path is read, and its name is told, exactly if there is one. -/
theorem hasProgram_iff : d.HasProgram binary ↔
    (∃ payload, d.program binary = .ok payload) ∧ ∃ name, Build.binaryName binary = .ok name := by
  unfold HasProgram
  rw [← isRegularFile_iff]
  refine and_congr ?_ ?_
  · constructor
    · intro h
      obtain ⟨mode, content, hf⟩ := isRegularFile_iff.1 h
      exact ⟨content, program_eq_ok_iff.2 ⟨h, by simp only [read, hf]⟩⟩
    · rintro ⟨payload, hp⟩
      exact (program_eq_ok_iff.1 hp).1
  · simp only [Build.binaryName_eq_ok_iff]
    exact exists_comm

end Disk

/-! ## The checks and what is built -/

namespace Disk

variable {d e : Disk} {r : BuildRequest} {epoch : Option Int} {codec : Zip.Codec} {plan : Plan}
  {error : BuildError}

theorem check_of_program_error {binary : Path} (h : d.program binary = .error error) :
    error.check = .program := by
  unfold program at h
  split at h
  · cases hr : d.read binary with
    | error cause =>
      rw [hr] at h
      cases h
      rfl
    | ok payload =>
      rw [hr] at h
      cases h
  · cases h
    rfl

theorem check_of_binaryName_error {binary : Path} (h : Build.binaryName binary = .error error) :
    error.check = .program := by
  unfold Build.binaryName at h
  split at h
  · cases h
    rfl
  · split at h
    · cases h
      rfl
    · cases h

theorem check_of_archive_error (h : plan.archiveWith codec epoch = .error error) :
    error.check = .output :=
  BuildError.check_eq_output_iff.2 (isUserError_of_archive_error h)

/-- Without a program there is no wheel. -/
theorem build_of_not_hasProgram (h : ¬d.HasProgram r.binary) (epoch : Option Int)
    (codec : Zip.Codec) :
    ∃ error, d.build r epoch codec = (.error error, d) ∧ error.check = .program := by
  rw [hasProgram_iff] at h
  cases hp : d.program r.binary with
  | error error => exact ⟨error, build_of_program_error hp epoch codec, check_of_program_error hp⟩
  | ok payload =>
    cases hn : Build.binaryName r.binary with
    | error error =>
      exact ⟨error, build_of_binaryName_error hp hn epoch codec, check_of_binaryName_error hn⟩
    | ok name => exact absurd ⟨⟨payload, hp⟩, name, hn⟩ h

/-- With a program there is no wheel exactly if it cannot be written. -/
theorem build_of_program {payload : Bytes} {name : String} (hp : d.program r.binary = .ok payload)
    (hn : Build.binaryName r.binary = .ok name) (epoch : Option Int) (codec : Zip.Codec) :
    (d.Unwritable r (r.plan name payload) epoch codec ∧
        ∃ error e, d.build r epoch codec = (.error error, e) ∧ error.check = .output) ∨
      ¬d.Unwritable r (r.plan name payload) epoch codec ∧
        ∃ built e, d.build r epoch codec = (.ok built, e) := by
  unfold build BuildRequest.packed deliver persist
  simp only [hp, hn]
  cases ha : (r.plan name payload).archiveWith codec epoch with
  | error error => exact .inl ⟨.pack ha, error, d, rfl, check_of_archive_error ha⟩
  | ok archive =>
    rcases hm : d.makeDirectories r.outputDir with ⟨cause | ⟨⟩, mid⟩
    · exact .inl ⟨.makeDirectories ha hm, _, mid, rfl, rfl⟩
    cases hs : mid.stage r.outputDir with
    | error cause =>
      refine .inl ⟨.stage ha hm hs, ?_⟩
      simp only [hs]
      exact ⟨_, mid, rfl, rfl⟩
    | ok made =>
      obtain ⟨staged, e⟩ := made
      cases hr : (e.filled staged archive Build.wheelMode).publish staged r.wheelPath with
      | error cause =>
        refine .inl ⟨.publish ha hm hs hr, ?_⟩
        simp only [hs, hr]
        exact ⟨_, _, rfl, rfl⟩
      | ok f =>
        refine .inr ⟨fun h => ?_, ?_⟩
        · cases h with
          | pack hp => cases hp.symm.trans ha
          | makeDirectories _ hm' => cases hm'.symm.trans hm
          | stage _ hm' hs' =>
            cases hm'.symm.trans hm
            cases hs'.symm.trans hs
          | publish hp' hm' hs' hr' =>
            cases hp'.symm.trans ha
            cases hm'.symm.trans hm
            cases hs'.symm.trans hs
            cases hr'.symm.trans hr
        · simp only [hs, hr]
          exact ⟨_, f, rfl⟩

end Disk

/-! ## The checks and the outcome -/

/-- The outcome is that of a run for which the check fails. -/
structure Outcome.Tells (o : Outcome) (c : Wrap.Check) : Prop where
  reason : o.details.field? "reason" = some (.string c.reason)
  status : o.status = c.status
  exitCode : o.exitCode = c.exitCode

namespace Wrap

variable {config : Config} {request : WrapRequest} {codec : Zip.Codec} {w : World}

/-- An error is told as its check is. -/
theorem tells_errorOutcome {error : BuildError} {c : Check} (h : error.check = c) :
    (errorOutcome error).Tells c := by
  subst h
  cases error <;> exact ⟨by rw [errorOutcome, Json.field?_ofFields]; rfl, rfl, rfl⟩

/-- Different checks are told differently. -/
theorem Check.eq_of_tells {o : Outcome} {b c : Check} (hb : o.Tells b)
    (hc : o.details.field? "reason" = some (.string c.reason)) : b = c := by
  have h := hb.reason.symm.trans hc
  simp only [Option.some.injEq, Json.string.injEq] at h
  revert h
  cases b <;> cases c <;> decide

/-- What a run that succeeds tells has no reason. -/
theorem reason_successOutcome (settled : BuildRequest) (built : BuiltWheel) :
    (successOutcome settled built).details.field? "reason" = none := by
  rw [successOutcome, Json.field?_ofFields]
  rfl

theorem lacksName_of_not_fails (h : ¬Check.Fails config request codec w .request) :
    lacksName request = false := by
  rw [← lacksName_iff] at h
  simpa using h

/-- A request can be settled if there is a tag for its platform and its long description can be
read. -/
theorem exists_settled (hp : ¬Check.Fails config request codec w .platform)
    (hr : ¬Check.Fails config request codec w .readme) :
    ∃ settled, request.settled config w.machine w.disk = .ok settled ∧
      settled.binary = request.binary := by
  cases ht : request.platform.tag w.machine with
  | error error => exact absurd (PlatformChoice.isUnknown_iff.2 ⟨error, ht⟩) hp
  | ok tag =>
    cases hd : w.disk.description request.longDescription with
    | error error => exact absurd (Disk.description_eq_error_iff.1 ⟨error, hd⟩) hr
    | ok longDescription =>
      exact ⟨_, WrapRequest.settled_eq_ok_iff.2 ⟨tag, longDescription, ht, hd, rfl⟩, rfl⟩

/-- The first check that fails is told. -/
theorem tells_of_isFirst {c : Check} (h : c.IsFirst config request codec w) :
    (w.disk.wrap config request codec w.machine).1.Tells c := by
  obtain ⟨hf, hb⟩ := h
  unfold Disk.wrap
  cases c with
  | request =>
    rw [if_pos (lacksName_iff.2 hf)]
    exact ⟨rfl, rfl, rfl⟩
  | platform =>
    obtain ⟨error, he⟩ := PlatformChoice.isUnknown_iff.1 hf
    have hs : request.settled config w.machine w.disk = .error (.platform error) := by
      rw [WrapRequest.settled, he]
    simp only [lacksName_of_not_fails (hb .request (by decide)), hs]
    exact tells_errorOutcome rfl
  | readme =>
    obtain ⟨error, he⟩ := Disk.description_eq_error_iff.2 hf
    cases ht : request.platform.tag w.machine with
    | error error =>
      exact absurd (PlatformChoice.isUnknown_iff.2 ⟨error, ht⟩) (hb .platform (by decide))
    | ok tag =>
      have hs : request.settled config w.machine w.disk = .error error := by
        rw [WrapRequest.settled, ht, he]
        rfl
      simp only [lacksName_of_not_fails (hb .request (by decide)), hs]
      exact tells_errorOutcome (Disk.check_of_description_error he)
  | program =>
    obtain ⟨settled, hs, hbin⟩ :=
      exists_settled (hb .platform (by decide)) (hb .readme (by decide))
    have hprogram : ¬w.disk.HasProgram settled.binary := hbin ▸ hf
    obtain ⟨error, he, hc⟩ := Disk.build_of_not_hasProgram hprogram config.epoch codec
    simp only [lacksName_of_not_fails (hb .request (by decide)), hs, he]
    exact tells_errorOutcome hc
  | output =>
    obtain ⟨settled, payload, name, hs, hr, hn, hu⟩ := hf
    obtain ⟨tag, longDescription, -, -, rfl⟩ := WrapRequest.settled_eq_ok_iff.1 hs
    have hprogram : w.disk.HasProgram request.binary :=
      Classical.not_not.1 (hb .program (by decide))
    have hp := Disk.program_eq_ok_iff.2 ⟨Disk.isRegularFile_iff.2 hprogram.1, hr⟩
    rcases Disk.build_of_program (r := request.settle config tag longDescription) hp hn
      config.epoch codec with ⟨-, error, e, he, hc⟩ | ⟨hnot, -⟩
    · simp only [lacksName_of_not_fails (hb .request (by decide)), hs, he]
      exact tells_errorOutcome hc
    · exact absurd hu hnot

theorem Check.status_ne_ok (c : Check) : c.status ≠ .ok := by
  cases c <;> exact nofun

/-- A run that succeeds tells no reason, and has written the wheel. -/
theorem wrote_of_status {w' : World} {o : Outcome}
    (hw : w.disk.wrap config request codec w.machine = (o, w'.disk)) (ho : o.status = .ok) :
    o.details.field? "reason" = none ∧ ∃ archive, Wrote config request codec w w' archive := by
  obtain ⟨tag, longDescription, payload, name, mid, t, ht, hl, hp, hn, hd, rfl⟩ :=
    Disk.exists_of_wrap_ok hw ho
  refine ⟨reason_successOutcome _ _, _, _, payload, name, mid, t, ?_, hp, hn, rfl, hd⟩
  exact WrapRequest.settled_eq_ok_iff.2 ⟨tag, longDescription, ht, hl, rfl⟩

/-- On a disk that is a tree the name of a program is what follows the last slash. -/
theorem fails_program_iff (ht : w.disk.IsTree) : Check.Fails config request codec w .program ↔
    (¬∃ mode content, w.disk.find? request.binary = .ok (.file mode content)) ∨
      ∃ name, request.binary.pieces.getLast? = some name ∧ Utf8.decode? name = none := by
  unfold Check.Fails Disk.HasProgram
  by_cases hf : ∃ mode content, w.disk.find? request.binary = .ok (.file mode content)
  · obtain ⟨mode, content, hc⟩ := hf
    obtain ⟨name, hname, hlast⟩ := Disk.exists_fileName_of_file ht hc
    cases hd : Utf8.decode? name <;> simp [hc, hname, hlast, hd]
  · simp [hf]

/-- If no check fails, the run succeeds. -/
theorem status_of_no_check (h : ∀ c, ¬Check.Fails config request codec w c) :
    (w.disk.wrap config request codec w.machine).1.status = .ok := by
  obtain ⟨settled, hs, hbin⟩ := exists_settled (h .platform) (h .readme)
  obtain ⟨⟨payload, hp⟩, name, hn⟩ :=
    Disk.hasProgram_iff.1 (Classical.not_not.1 (h .program))
  rw [← hbin] at hp hn
  rcases Disk.build_of_program hp hn config.epoch codec with ⟨hu, -⟩ | ⟨-, built, e, he⟩
  · refine absurd ⟨settled, payload, name, hs, ?_, ?_, hu⟩ (h .output)
    · rw [← hbin]
      exact (Disk.program_eq_ok_iff.1 hp).2
    · rw [← hbin]
      exact hn
  · unfold Disk.wrap
    simp only [lacksName_of_not_fails (h .request), hs, he]
    rfl

end Wrap

/-- The outcome of every run is that of the first check that fails, by its code, its status and the
number that the process ends with; it is success exactly if none fails, and then the wheel is on the
disk. On a disk that is a tree the check of the program fails exactly if its path does not lead to a
regular file, or what follows the path's last slash is not text. -/
theorem judged_wrap (config : Config) (request : WrapRequest) (codec : Zip.Codec) (w : World) :
    ∃ o w', (wrap (m := Simulation) config request codec).run w = (o, w') ∧
      (∀ c : Wrap.Check,
        (o.details.field? "reason" = some (.string c.reason) ↔ c.IsFirst config request codec w) ∧
          (c.IsFirst config request codec w → o.status = c.status ∧ o.exitCode = c.exitCode)) ∧
      (o.status = .ok ↔ ∀ c, ¬Wrap.Check.Fails config request codec w c) ∧
      (o.status = .ok → o.exitCode = 0 ∧ o.details.field? "reason" = none ∧
        ∃ archive, Wrap.Wrote config request codec w w' archive) ∧
      (w.disk.IsTree → (Wrap.Check.Fails config request codec w .program ↔
        (¬∃ mode content, w.disk.find? request.binary = .ok (.file mode content)) ∨
          ∃ name, request.binary.pieces.getLast? = some name ∧ Utf8.decode? name = none)) := by
  rcases hr : (wrap (m := Simulation) config request codec).run w with ⟨o, w'⟩
  have hw := Disk.wrap_eq_of_run hr
  have ho : (w.disk.wrap config request codec w.machine).1 = o := congrArg Prod.fst hw
  have hfirst : ∀ c : Wrap.Check, c.IsFirst config request codec w → o.Tells c := by
    intro c hc
    exact ho ▸ Wrap.tells_of_isFirst hc
  have hok : o.status = .ok ↔ ∀ c, ¬Wrap.Check.Fails config request codec w c := by
    constructor
    · intro hs c hc
      obtain ⟨b, hb⟩ := Wrap.Check.exists_isFirst hc
      exact absurd ((hfirst b hb).status.symm.trans hs) (b.status_ne_ok)
    · intro hn
      exact ho ▸ Wrap.status_of_no_check hn
  refine ⟨o, w', rfl, fun c => ⟨⟨fun hc => ?_, fun hc => (hfirst c hc).reason⟩,
    fun hc => ⟨(hfirst c hc).status, (hfirst c hc).exitCode⟩⟩, hok, fun hs => ?_,
    Wrap.fails_program_iff⟩
  · by_cases hb : ∃ b, Wrap.Check.Fails config request codec w b
    · obtain ⟨b, hb⟩ := hb
      obtain ⟨b, hb⟩ := Wrap.Check.exists_isFirst hb
      rwa [← Wrap.Check.eq_of_tells (hfirst b hb) hc]
    · -- a run that succeeds tells no reason
      have hs := hok.2 fun b hf => hb ⟨b, hf⟩
      rw [(Wrap.wrote_of_status hw hs).1] at hc
      cases hc
  · refine ⟨?_, Wrap.wrote_of_status hw hs⟩
    rw [Outcome.exitCode, hs]
    rfl

end Wheelwright
