import Wheelwright.Proofs.Wrap.Effect
/-!
# Runs that fail

A run that builds no wheel has lost nothing and left nothing behind. Whatever stood on the disk
still stands there as it was, a wheel in the place of the new one included; only directories can be
new, and only where the output directory's path or a path above it leads; and when the caller can
mend the failure by asking differently the disk is the one that the run began with. The main
statement is `grown_of_failed_run`.
-/

namespace Wheelwright

theorem Wrap.isUserError_of_status {error : BuildError}
    (h : (Wrap.errorOutcome error).status = .userError) : error.isUserError = true := by
  unfold Wrap.errorOutcome at h
  by_cases he : error.isUserError = true
  · exact he
  · simp [he] at h

/-- A run that fails has added directories at most, and none if the caller can mend it. -/
theorem Disk.grown_of_wrap_failed {config : Config} {request : WrapRequest} {codec : Zip.Codec}
    {m : Machine} {d e : Disk} {o : Outcome} (h : d.wrap config request codec m = (o, e))
    (ho : o.status ≠ .ok) :
    Grown (request.directory config) d e ∧ (o.status = .userError → e = d) := by
  rcases wrap_cases h with ⟨-, -, rfl⟩ | ⟨-, hw⟩
  · exact ⟨.refl _ e, fun _ => rfl⟩
  · rcases hw with ⟨error, -, -, rfl⟩ | ⟨settled, hs, hb⟩
    · exact ⟨.refl _ e, fun _ => rfl⟩
    · obtain ⟨tag, longDescription, -, -, rfl⟩ := WrapRequest.settled_eq_ok_iff.1 hs
      rcases hb with ⟨error, hb, rfl⟩ | ⟨built, hb, rfl⟩
      · obtain ⟨hg, he⟩ := grown_of_build_error hb
        exact ⟨hg, fun hu => he (Wrap.isUserError_of_status hu)⟩
      · exact absurd rfl ho

/-- A run that builds no wheel has lost nothing and left nothing behind but directories on the way
to the output directory; it has left none if the caller can mend the failure. -/
theorem grown_of_failed_run (config : Config) (request : WrapRequest) (codec : Zip.Codec)
    (w : World)
    (h : ((wrap (m := Simulation) config request codec).run w).1.status ≠ .ok) :
    Disk.Grown (request.directory config) w.disk
        ((wrap (m := Simulation) config request codec).run w).2.disk ∧
      (((wrap (m := Simulation) config request codec).run w).1.status = .userError →
        ((wrap (m := Simulation) config request codec).run w).2.disk = w.disk) := by
  rcases hr : (wrap (m := Simulation) config request codec).run w with ⟨o, w'⟩
  rw [hr] at h
  exact Disk.grown_of_wrap_failed (Disk.wrap_eq_of_run hr) h

/-! ## A wheel without a directory -/

namespace Astray

/-- A world with a program `t` and nothing else. -/
def world : World where
  machine := ⟨"linux", "x86_64"⟩
  disk := ⟨⟨some (.directory 0o755), [(Utf8.encode "t", ⟨some (.file 0o755 [0x7F]), []⟩)]⟩, []⟩
  journal := []

/-- A request for a wheel below a directory that nobody makes, in a directory that is made. -/
def request : WrapRequest where
  name := "x/y"
  version := "1"
  binary := .ofString "t"
  platform := .explicit "win_amd64"
  outputDir := some (.ofString "a")
  entryPoint := none
  description := none
  author := none
  license := none
  url := none
  longDescription := none

/-- Settings that leave everything open. -/
def config : Config := ⟨.ofString "dist", none⟩

/-- The disk when the directory is made. -/
def ready : Disk := (world.disk.makeDirectories (.ofString "a")).2

theorem status_ne_ok :
    ((wrap (m := Simulation) config request Zip.stored).run world).1.status ≠ .ok := by
  rcases hr : (wrap (m := Simulation) config request Zip.stored).run world with ⟨o, w'⟩
  rcases Disk.wrap_cases (Disk.wrap_eq_of_run hr) with ⟨-, rfl, -⟩ | ⟨-, hw⟩
  · exact nofun
  · rcases hw with ⟨error, -, rfl, -⟩ | ⟨settled, hs, ⟨error, -, rfl⟩ | ⟨built, hb, -⟩⟩
    · exact Wrap.status_errorOutcome_ne_ok error
    · exact Wrap.status_errorOutcome_ne_ok error
    · obtain ⟨tag, longDescription, ht, -, rfl⟩ := WrapRequest.settled_eq_ok_iff.1 hs
      have hp : request.platform.tag world.machine = .ok ⟨"win_amd64"⟩ := rfl
      cases hp.symm.trans ht
      -- the wheel's path has no place, so nothing can have been renamed to it
      obtain ⟨-, archive, mid, -, -, hm, hw⟩ := Disk.exists_of_build_ok hb
      obtain ⟨t, hslot, -⟩ := Disk.exists_of_persist_ok hw
      have hmid : mid = ready := (congrArg Prod.snd hm).symm
      have hn : (ready.slot (request.settle config ⟨"win_amd64"⟩ none).wheelPath .busy).isOk =
          false := by decide +kernel
      have hs : ready.slot (request.settle config ⟨"win_amd64"⟩ none).wheelPath .busy = .ok t :=
        hmid ▸ hslot
      rw [hs] at hn
      cases hn

end Astray

/-- The directory that is made is all that this run leaves behind. -/
theorem grown_of_run_astray :
    let ended := (wrap (m := Simulation) Astray.config Astray.request Zip.stored).run Astray.world
    ended.1.status ≠ .ok ∧ Disk.Grown (.ofString "a") Astray.world.disk ended.2.disk ∧
      (ended.1.status = .userError → ended.2.disk = Astray.world.disk) :=
  ⟨Astray.status_ne_ok,
    grown_of_failed_run Astray.config Astray.request Zip.stored Astray.world Astray.status_ne_ok⟩

end Wheelwright
