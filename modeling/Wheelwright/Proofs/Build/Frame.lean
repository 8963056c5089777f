import Wheelwright.Proofs.Build.Effect
/-!
# What a build leaves alone

Every part of a build is held to what it may change. Making directories only adds directories
(`grown_makeDirectories`); a wheel that cannot be put in its place leaves nothing behind
(`same_of_persist_error`), and one that can be put there changes that place and no other
(`exists_of_persist_ok`). Together: a build that fails has added directories at most
(`grown_of_build_error`), and none if the caller can mend it.
-/

namespace Wheelwright.Disk

variable {d e : Disk} {p dir : Path} {content archive : Bytes} {request : BuildRequest}
  {epoch : Option Int} {codec : Zip.Codec} {error : BuildError}

/-! ## The directories -/

theorem grown_makeUpward (k : Nat) (p : Path) (d : Disk) : Grown p d (d.makeUpward k p).2 := by
  induction k generalizing p d with
  | zero => exact .refl p d
  | succ k ih =>
    unfold makeUpward
    by_cases hp : p.isEmpty = true
    · rw [if_pos hp]
      exact .refl p d
    rw [if_neg hp]
    cases hd : d.makeDirectory p with
    | ok e => exact grown_makeDirectory hd
    | error cause =>
      by_cases hc : cause = .os .noEntry
      · simp only [if_pos hc]
        cases hr : p.parent? with
        | none => exact .refl p d
        | some above =>
          dsimp only
          have hu : Grown p d (d.makeUpward k above).2 :=
            (ih above d).of_above (.parent .self hr)
          rcases hm : d.makeUpward k above with ⟨r, e⟩
          rw [hm] at hu
          cases r with
          | error cause => exact hu
          | ok =>
            dsimp only
            cases he : e.makeDirectory p with
            | ok f => exact hu.trans (grown_makeDirectory he)
            | error cause => exact hu
      · simp only [if_neg hc]
        exact .refl p d

/-- Directories that are made are all that is new. -/
theorem grown_makeDirectories (p : Path) (d : Disk) : Grown p d (d.makeDirectories p).2 :=
  grown_makeUpward _ p d

/-- Where the directory is there already, nothing is made. -/
theorem makeDirectories_of_isDirectory (h : d.isDirectory p) :
    d.makeDirectories p = (.ok (), d) := by
  have hm := makeDirectory_of_isDirectory h
  have hne : (Fault.os .fileExists) ≠ .os .noEntry := by decide
  unfold makeDirectories makeUpward
  simp [hm, hne, missed, h]

/-! ## The wheel -/

/-- A wheel that cannot be put in its place leaves nothing behind. -/
theorem same_of_persist_error (h : d.persist dir p content = (.error error, e)) : Same e d := by
  unfold persist at h
  split at h
  · cases h
    exact .refl d
  · next staged b hs =>
    obtain ⟨name, here, rfl, -, -, hn, rfl⟩ := exists_of_stage hs
    split at h
    · cases h
      exact same_drop_filled hn
    · cases h

/-- What goes wrong with putting a wheel in its place is the machine's. -/
theorem isUserError_of_persist_error (h : d.persist dir p content = (.error error, e)) :
    error.isUserError = false := by
  unfold persist at h
  split at h
  · cases h
    rfl
  · split at h
    · cases h
      rfl
    · cases h

/-- A wheel that is put in its place changes that place and no other. -/
theorem exists_of_persist_ok (h : d.persist dir p content = (.ok (), e)) :
    ∃ t, d.slot p .busy = .ok t ∧ ¬d.hasDirectory t ∧
      Same e (d.put t (.file Build.wheelMode content)) := by
  unfold persist at h
  split at h
  · cases h
  · next staged b hs =>
    obtain ⟨name, here, rfl, -, -, hn, rfl⟩ := exists_of_stage hs
    split at h
    · cases h
    · next f hp =>
      cases h
      exact exists_of_publish hn hp

/-- A wheel is put in its place if something can be staged and no directory stands there. -/
theorem exists_persist_ok {l t : Location} {b : Disk} (hs : d.stage dir = .ok (l, b))
    (hz : p.bytes.contains 0 = false) (hp : p.bytes.getLast? ≠ some Path.slash)
    (ht : d.slot p .busy = .ok t) (hd : ¬d.hasDirectory t) (content : Bytes) :
    ∃ e, d.persist dir p content = (.ok (), e) := by
  obtain ⟨name, here, rfl, -, -, hn, rfl⟩ := exists_of_stage hs
  obtain ⟨f, hf⟩ := publish_filled_of_slot hn hz hp ht hd content Build.wheelMode
  refine ⟨f, ?_⟩
  unfold persist
  simp only [hs, hf]

/-! ## The whole build -/

theorem isUserError_of_deliver_error (h : d.deliver request archive = (.error error, e)) :
    error.isUserError = false := by
  unfold deliver at h
  split at h
  · cases h
    rfl
  · exact isUserError_of_persist_error h

theorem grown_of_deliver_error (h : d.deliver request archive = (.error error, e)) :
    Grown request.outputDir d e := by
  have hg := grown_makeDirectories request.outputDir d
  unfold deliver at h
  split at h
  · next hm =>
    cases h
    rwa [hm] at hg
  · next b hm =>
    rw [hm] at hg
    exact hg.congr_right (same_of_persist_error h).symm

/-- Without a program nothing is done. -/
theorem build_of_program_error (h : d.program request.binary = .error error)
    (epoch : Option Int) (codec : Zip.Codec) :
    d.build request epoch codec = (.error error, d) := by
  simp only [build, BuildRequest.packed, h]

/-- Nor is anything done without a name for it. -/
theorem build_of_binaryName_error {payload : Bytes} (hp : d.program request.binary = .ok payload)
    (hn : Build.binaryName request.binary = .error error) (epoch : Option Int)
    (codec : Zip.Codec) : d.build request epoch codec = (.error error, d) := by
  simp only [build, BuildRequest.packed, hp, hn]

/-- What cannot be packed is not the caller's fault. -/
theorem isUserError_of_archive_error {plan : Plan}
    (h : plan.archiveWith codec epoch = .error error) : error.isUserError = false := by
  unfold Plan.archiveWith at h
  split at h
  · next hf =>
    cases h
    obtain ⟨member, -, hm⟩ := List.exists_of_findSome?_eq_some hf
    unfold Build.refusal? at hm
    split at hm
    · cases hm
      rfl
    · split at hm
      · cases hm
        rfl
      · cases hm
  · cases h

/-- Once the program is read and has a name, what goes wrong is the machine's. -/
theorem isUserError_of_build_error {payload : Bytes} {name : String}
    (hp : d.program request.binary = .ok payload)
    (hn : Build.binaryName request.binary = .ok name)
    (h : d.build request epoch codec = (.error error, e)) : error.isUserError = false := by
  unfold build BuildRequest.packed at h
  simp only [hp, hn] at h
  cases ha : (request.plan name payload).archiveWith codec epoch with
  | error error =>
    rw [ha] at h
    cases h
    exact isUserError_of_archive_error ha
  | ok archive =>
    simp only [ha] at h
    split at h
    · next hd =>
      cases h
      exact isUserError_of_deliver_error hd
    · cases h

/-- A build that fails has added directories at most, and none if the caller can mend it. -/
theorem grown_of_build_error (h : d.build request epoch codec = (.error error, e)) :
    Grown request.outputDir d e ∧ (error.isUserError = true → e = d) := by
  unfold build at h
  split at h
  · cases h
    exact ⟨.refl _ d, fun _ => rfl⟩
  · next plan archive hp =>
    split at h
    · next hd =>
      cases h
      refine ⟨grown_of_deliver_error hd, fun hu => ?_⟩
      rw [isUserError_of_deliver_error hd] at hu
      cases hu
    · cases h

/-- A build that succeeds has made directories and put the archive in its place. -/
theorem exists_of_build_ok {built : BuiltWheel} (h : d.build request epoch codec = (.ok built, e)) :
    ∃ plan archive mid, request.packed epoch codec d = .ok (plan, archive) ∧
      built = request.built plan archive ∧ d.makeDirectories request.outputDir = (.ok (), mid) ∧
      mid.persist request.outputDir request.wheelPath archive = (.ok (), e) := by
  unfold build at h
  split at h
  · cases h
  · next plan archive hp =>
    split at h
    · cases h
    · next hd =>
      simp only [Prod.mk.injEq, Except.ok.injEq] at h
      obtain ⟨rfl, rfl⟩ := h
      unfold deliver at hd
      split at hd
      · cases hd
      · next mid hm => exact ⟨plan, archive, mid, hp, rfl, hm, hd⟩

/-- A build succeeds if there is an archive and each of its parts succeeds. -/
theorem build_eq_ok {plan : Plan} {mid : Disk}
    (hp : request.packed epoch codec d = .ok (plan, archive))
    (hm : d.makeDirectories request.outputDir = (.ok (), mid))
    (hw : mid.persist request.outputDir request.wheelPath archive = (.ok (), e)) :
    d.build request epoch codec = (.ok (request.built plan archive), e) := by
  unfold build deliver
  simp only [hp, hm, hw]

end Wheelwright.Disk
