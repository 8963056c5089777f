import Wheelwright.Proofs.Disk.Replacement
import Wheelwright.Proofs.Simulation
/-!
# What a build does to a disk

On a simulated machine the result of a build, and the disk that it leaves, are functions of the disk
that it finds. These functions are said here in the order of the build: what is read and packed
(`BuildRequest.packed`) leaves the disk alone, the directories are made (`Disk.makeDirectories`),
and the archive is put in its place (`Disk.persist`). The main statement is `ends_build`: a build
ends as `Disk.build` says.
-/

namespace Wheelwright

/-! ## Reading and packing -/

/-- The bytes of the program at a path. -/
def Disk.program (d : Disk) (binary : Path) : Except BuildError Bytes :=
  if d.isRegularFile binary then (d.read binary).mapError (.binaryNotFound binary)
  else .error (.binaryNotFound binary .notRegularFile)

theorem Build.binaryName_eq_ok_iff {binary : Path} {name : String} :
    binaryName binary = .ok name ↔
      ∃ bytes, binary.fileName? = some bytes ∧ Utf8.decode? bytes = some name := by
  unfold binaryName
  cases binary.fileName? with
  | none => simp
  | some bytes => cases hd : Utf8.decode? bytes <;> simp [hd]

/-- Why a member cannot be stored. -/
def Build.refusal? (codec : Zip.Codec) (member : Member) : Option BuildError :=
  if Zip.largestMember < member.content.length then
    some (.io ("writing " ++ member.path) .memberTooLarge)
  else if Zip.largestMember < (codec.pack member.content).length then
    some (.archive .memberTooLarge)
  else none

/-- The archive of a layout, packed with a codec, if every member can be stored. -/
def Plan.archiveWith (codec : Zip.Codec) (plan : Plan) (epoch : Option Int) :
    Except BuildError Bytes :=
  match plan.members.findSome? (Build.refusal? codec) with
  | some error => .error error
  | none => .ok (Zip.writeWith codec (Stamp.ofSetting epoch) plan.members)

/-- The layout that a request asks for and its archive. -/
def BuildRequest.packed (request : BuildRequest) (epoch : Option Int) (codec : Zip.Codec)
    (d : Disk) : Except BuildError (Plan × Bytes) :=
  match d.program request.binary with
  | .error error => .error error
  | .ok payload =>
    match Build.binaryName request.binary with
    | .error error => .error error
    | .ok name =>
      match (request.plan name payload).archiveWith codec epoch with
      | .error error => .error error
      | .ok archive => .ok (request.plan name payload, archive)

/-! ## Writing -/

namespace Disk

/-- That a directory cannot be made is no failure if it is there. -/
def missed (d : Disk) (p : Path) (cause : Fault) : Except Fault Unit × Disk :=
  (if d.isDirectory p then .ok () else .error cause, d)

/-- A directory, and those above it as far as they are missing, at most as many as `fuel`; those
that were made stay when something fails. -/
def makeUpward : Nat → Path → Disk → Except Fault Unit × Disk
  | 0, _, d => (.error Build.noRoot, d)
  | fuel + 1, p, d =>
    if p.isEmpty then (.ok (), d)
    else match d.makeDirectory p with
      | .ok e => (.ok (), e)
      | .error cause =>
        if cause = .os .noEntry then
          match p.parent? with
          | none => (.error Build.noRoot, d)
          | some above =>
            match makeUpward fuel above d with
            | (.error cause, e) => (.error cause, e)
            | (.ok (), e) =>
              match e.makeDirectory p with
              | .ok f => (.ok (), f)
              | .error cause => e.missed p cause
        else d.missed p cause

/-- A directory with all the directories above it. -/
def makeDirectories (p : Path) (d : Disk) : Except Fault Unit × Disk :=
  makeUpward (p.bytes.length + 1) p d

/-- The content in a file at `p`, by way of a staged file in `dir`. -/
def persist (dir p : Path) (content : Bytes) (d : Disk) : Except BuildError Unit × Disk :=
  match d.stage dir with
  | .error cause => (.error (.io ("staging wheel in " ++ dir.display) cause), d)
  | .ok (staged, e) =>
    match (e.filled staged content Build.wheelMode).publish staged p with
    | .error cause =>
      (.error (.io ("writing " ++ p.display) cause),
        (e.filled staged content Build.wheelMode).drop staged)
    | .ok f => (.ok (), f)

end Disk

namespace BuildRequest

/-- Where the wheel goes. -/
def wheelPath (request : BuildRequest) : Path := request.outputDir.join (.ofString request.filename)

/-- What is known of the wheel once it is written. -/
def built (request : BuildRequest) (plan : Plan) (archive : Bytes) : BuiltWheel where
  path := request.wheelPath
  bytes := archive.length
  sha256 := hexDigest archive
  platform := request.platform
  entries := plan.entries

end BuildRequest

namespace Disk

/-- An archive in the place where a request wants its wheel. -/
def deliver (request : BuildRequest) (archive : Bytes) (d : Disk) : Except BuildError Unit × Disk :=
  match d.makeDirectories request.outputDir with
  | (.error cause, e) =>
    (.error (.io ("creating output directory " ++ request.outputDir.display) cause), e)
  | (.ok (), e) => e.persist request.outputDir request.wheelPath archive

/-- The wheel that a request asks for, and the disk with it. -/
def build (request : BuildRequest) (epoch : Option Int) (codec : Zip.Codec) (d : Disk) :
    Except BuildError BuiltWheel × Disk :=
  match request.packed epoch codec d with
  | .error error => (.error error, d)
  | .ok (plan, archive) =>
    match d.deliver request archive with
    | (.error error, e) => (.error error, e)
    | (.ok (), e) => (.ok (request.built plan archive), e)

end Disk

/-! ## The build ends as the functions say -/

namespace Build

open Simulation

variable {α : Type} {m : Machine} {d e : Disk} {x : Simulation (Except Fault α)} {a : α}
  {cause : Fault} {error : Fault → BuildError}

theorem ends_report (event : Event) :
    Ends (report (m := Simulation) event).run m d (.ok ()) d := (ends_log event).run_lift

theorem ends_reportAll (events : List Event) :
    Ends (reportAll (m := Simulation) events).run m d (.ok ()) d := by
  induction events with
  | nil => exact .run_pure ()
  | cons event events ih => exact (ends_report event).run_bind ih

theorem ends_attempt_ok (h : Ends x m d (.ok a) e) : Ends (attempt x error).run m d (.ok a) e :=
  h.run_lift.run_bind (.run_pure a)

theorem ends_attempt_error (h : Ends x m d (.error cause) e) :
    Ends (attempt x error).run m d (.error (error cause)) e :=
  h.run_lift.run_bind (.run_throw _)

theorem ends_readBinary (binary : Path) :
    Ends (readBinary (m := Simulation) binary).run m d (d.program binary) d := by
  refine (ends_isRegularFile binary).run_lift.run_bind ?_
  unfold Disk.program
  by_cases hr : d.isRegularFile binary = true
  · rw [if_pos hr, if_pos hr]
    have hf := ends_readFile (m := m) (d := d) binary
    cases hd : d.read binary with
    | error cause => exact (ends_attempt_error (hd ▸ hf)).run_bind_error
    | ok payload =>
      exact (ends_attempt_ok (hd ▸ hf)).run_bind ((ends_report _).run_bind (.run_pure payload))
  · rw [if_neg hr, if_neg hr]
    exact .run_throw _

/-- Members are stored up to the first that cannot be. -/
theorem ends_storeAll (codec : Zip.Codec) (members : List Member) :
    Ends (storeAll (m := Simulation) codec members).run m d
      (match members.findSome? (refusal? codec) with
        | some error => .error error
        | none => .ok ()) d := by
  induction members with
  | nil => exact .run_pure ()
  | cons member members ih =>
    unfold storeAll
    rw [List.findSome?_cons, refusal?]
    by_cases hc : Zip.largestMember < member.content.length
    · rw [if_pos hc, if_pos hc]
      exact .run_throw _
    rw [if_neg hc, if_neg hc]
    refine (ends_report _).run_bind ?_
    by_cases hp : Zip.largestMember < (codec.pack member.content).length
    · rw [if_pos hp, if_pos hp]
      exact .run_throw _
    rw [if_neg hp, if_neg hp]
    exact ih

theorem ends_packWith (codec : Zip.Codec) (plan : Plan) (epoch : Option Int) :
    Ends (packWith (m := Simulation) codec plan epoch).run m d (plan.archiveWith codec epoch)
      d := by
  have hs := ends_storeAll (m := m) (d := d) codec plan.members
  refine (ends_reportAll _).run_bind ?_
  unfold Plan.archiveWith
  cases hf : plan.members.findSome? (refusal? codec) with
  | none =>
    rw [hf] at hs
    exact hs.run_bind (.run_pure _)
  | some error =>
    rw [hf] at hs
    exact hs.run_bind_error

theorem ends_missed (p : Path) (cause : Fault) :
    Ends (do
      if ← Host.isDirectory (m := Simulation) p then return Except.ok ()
      else return Except.error cause) m d (d.missed p cause).1 (d.missed p cause).2 := by
  refine (ends_isDirectory p).bind ?_
  unfold Disk.missed
  cases d.isDirectory p with
  | true => exact .pure _
  | false => exact .pure _

theorem ends_makeUpward (k : Nat) (p : Path) (d : Disk) :
    Ends (makeUpward (m := Simulation) k p) m d (d.makeUpward k p).1 (d.makeUpward k p).2 := by
  induction k generalizing p d with
  | zero => exact .pure _
  | succ k ih =>
    unfold makeUpward Disk.makeUpward
    by_cases hp : p.isEmpty = true
    · rw [if_pos hp, if_pos hp]
      exact .pure _
    rw [if_neg hp, if_neg hp]
    cases hd : d.makeDirectory p with
    | ok e => exact (ends_makeDirectory_ok hd).bind (.pure _)
    | error cause =>
      refine (ends_makeDirectory_error hd).bind ?_
      by_cases hc : cause = .os .noEntry
      · subst hc
        simp only [if_pos]
        cases p.parent? with
        | none => exact .pure _
        | some above =>
          dsimp only
          have hu := ih above d
          rcases hm : d.makeUpward k above with ⟨r, e⟩
          rw [hm] at hu
          refine hu.bind ?_
          cases r with
          | error cause => exact .pure _
          | ok =>
            dsimp only
            cases he : e.makeDirectory p with
            | ok f => exact (ends_makeDirectory_ok he).bind (.pure _)
            | error cause => exact (ends_makeDirectory_error he).bind (ends_missed p cause)
      · simp only [if_neg hc]
        split
        · next h => cases h
        · next h =>
          cases h
          exact absurd rfl hc
        · next h =>
          cases h
          exact ends_missed p cause

theorem ends_makeDirectories (p : Path) (d : Disk) :
    Ends (makeDirectories (m := Simulation) p) m d (d.makeDirectories p).1
      (d.makeDirectories p).2 := ends_makeUpward _ p d

/-- A staged file that is filled goes to its place or is still where it was staged. -/
theorem ends_finish_ok {staged : Location} {p : Path} {content : Bytes}
    (h : (d.filled staged content wheelMode).publish staged p = .ok e) :
    Ends (finish (m := Simulation) staged p content) m d (.ok ()) e :=
  (ends_fill staged content).bind ((ends_setMode staged wheelMode).bind (ends_publish_ok h))

theorem ends_finish_error {staged : Location} {p : Path} {content : Bytes}
    (h : (d.filled staged content wheelMode).publish staged p = .error cause) :
    Ends (finish (m := Simulation) staged p content) m d (.error cause)
      (d.filled staged content wheelMode) :=
  (ends_fill staged content).bind ((ends_setMode staged wheelMode).bind (ends_publish_error h))

theorem ends_persist (dir p : Path) (content : Bytes) (d : Disk) :
    Ends (persist (m := Simulation) dir p content).run m d (d.persist dir p content).1
      (d.persist dir p content).2 := by
  unfold persist Disk.persist
  cases hs : d.stage dir with
  | error cause => exact (ends_attempt_error (ends_stage_error hs)).run_bind_error
  | ok made =>
    obtain ⟨staged, e⟩ := made
    refine (ends_attempt_ok (ends_stage_ok hs)).run_bind ?_
    dsimp only
    cases hp : (e.filled staged content wheelMode).publish staged p with
    | ok f => exact (ends_finish_ok hp).run_lift.run_bind (.run_pure ())
    | error cause =>
      refine (ends_finish_error hp).run_lift.run_bind ?_
      exact (ends_discard staged).run_lift.run_bind (.run_throw _)

section deliver

variable {β : Type} {request : BuildRequest} {archive : Bytes} {f : Disk} {error : BuildError}
  {g : ExceptT BuildError Simulation β} {r : Except BuildError β}

/-- The part of a build that writes, with whatever comes after it. -/
def writing (request : BuildRequest) (archive : Bytes) (g : ExceptT BuildError Simulation β) :
    ExceptT BuildError Simulation β := do
  attempt (makeDirectories request.outputDir)
    (.io ("creating output directory " ++ request.outputDir.display))
  persist request.outputDir request.wheelPath archive
  g

theorem ends_writing_error (h : d.deliver request archive = (.error error, e)) :
    Ends (writing request archive g).run m d (.error error) e := by
  have hm := ends_makeDirectories (m := m) request.outputDir d
  unfold Disk.deliver at h
  split at h
  · next hd =>
    cases h
    rw [hd] at hm
    exact (ends_attempt_error hm).run_bind_error
  · next b hd =>
    rw [hd] at hm
    have hp := ends_persist (m := m) request.outputDir request.wheelPath archive b
    rw [h] at hp
    exact (ends_attempt_ok hm).run_bind hp.run_bind_error

theorem ends_writing_ok (h : d.deliver request archive = (.ok (), e)) (hg : Ends g.run m e r f) :
    Ends (writing request archive g).run m d r f := by
  have hm := ends_makeDirectories (m := m) request.outputDir d
  unfold Disk.deliver at h
  split at h
  · cases h
  · next b hd =>
    rw [hd] at hm
    have hp := ends_persist (m := m) request.outputDir request.wheelPath archive b
    rw [h] at hp
    exact (ends_attempt_ok hm).run_bind (hp.run_bind hg)

end deliver

end Build

theorem BuildRequest.packed_eq_ok_iff {request : BuildRequest} {epoch : Option Int}
    {codec : Zip.Codec} {d : Disk} {plan : Plan} {archive : Bytes} :
    request.packed epoch codec d = .ok (plan, archive) ↔
    ∃ payload name, d.program request.binary = .ok payload ∧
      Build.binaryName request.binary = .ok name ∧ plan = request.plan name payload ∧
      plan.archiveWith codec epoch = .ok archive := by
  unfold BuildRequest.packed
  constructor
  · intro h
    split at h
    · cases h
    · next payload hp =>
      split at h
      · cases h
      · next name hn =>
        split at h
        · cases h
        · next ha =>
          simp only [Except.ok.injEq, Prod.mk.injEq] at h
          obtain ⟨rfl, rfl⟩ := h
          exact ⟨payload, name, hp, hn, rfl, ha⟩
  · rintro ⟨payload, name, hp, hn, rfl, ha⟩
    simp only [hp, hn, ha]

open Simulation in
/-- A build gives what is said of it, and leaves the disk that is said to be left. -/
theorem ends_build (request : BuildRequest) (epoch : Option Int) (codec : Zip.Codec) (m : Machine)
    (d : Disk) : Ends (build (m := Simulation) request epoch codec).run m d
      (d.build request epoch codec).1 (d.build request epoch codec).2 := by
  unfold build Disk.build BuildRequest.packed
  have hb := Build.ends_readBinary (m := m) (d := d) request.binary
  cases hp : d.program request.binary with
  | error error =>
    rw [hp] at hb
    exact hb.run_bind_error
  | ok payload =>
    rw [hp] at hb
    refine hb.run_bind ?_
    cases hn : Build.binaryName request.binary with
    | error error => exact Ends.run_bind_error (.run_throw error)
    | ok name =>
      refine Ends.run_bind (.run_pure name) ((Build.ends_reportAll _).run_bind ?_)
      dsimp only
      have hk := Build.ends_packWith (m := m) (d := d) codec (request.plan name payload) epoch
      cases ha : (request.plan name payload).archiveWith codec epoch with
      | error error =>
        rw [ha] at hk
        exact hk.run_bind_error
      | ok archive =>
        rw [ha] at hk
        refine hk.run_bind ?_
        dsimp only
        rcases hd : d.deliver request archive with ⟨r, e⟩
        cases r with
        | error error => exact Build.ends_writing_error hd
        | ok => exact Build.ends_writing_ok hd ((Build.ends_report _).run_bind (.run_pure _))

/-- A run of a build that is at hand ended as is said of the build. -/
theorem Disk.build_eq_of_run {request : BuildRequest} {epoch : Option Int} {codec : Zip.Codec}
    {w w' : World} {r : Except BuildError BuiltWheel}
    (h : (Wheelwright.build (m := Simulation) request epoch codec).run.run w = (r, w')) :
    w.disk.build request epoch codec = (r, w'.disk) :=
  (ends_build request epoch codec w.machine w.disk).eq_of_run h

/-- What is said of the build is how a run of it ends. -/
theorem Disk.exists_run_build {request : BuildRequest} {epoch : Option Int} {codec : Zip.Codec}
    {w : World} {e : Disk} {r : Except BuildError BuiltWheel}
    (h : w.disk.build request epoch codec = (r, e)) :
    ∃ w', (Wheelwright.build (m := Simulation) request epoch codec).run.run w = (r, w') ∧
      w'.disk = e := by
  have hb := ends_build request epoch codec w.machine w.disk
  rw [h] at hb
  obtain ⟨journal, hr⟩ := hb.exists_run w.journal
  exact ⟨_, hr, rfl⟩

end Wheelwright
