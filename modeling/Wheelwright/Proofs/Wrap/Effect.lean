import Wheelwright.Proofs.Build.Frame
import Wheelwright.Wrap
/-!
# What a run does to a disk

A run settles what a request leaves open, which only reads, and builds. As with the build, its
outcome and the disk that it leaves are functions of the machine and of the disk that it finds. The
main statement is `ends_wrap`: a run ends as `Disk.wrap` says.
-/

namespace Wheelwright

/-! ## What is settled -/

/-- The tag of a choice on a machine. -/
def PlatformChoice.tag (m : Machine) : PlatformChoice → Except PlatformError PlatformTag
  | .explicit input => Platform.resolve input
  | .detect =>
    match Platform.ofHost m.os m.arch with
    | .error error => .error error
    | .ok platform => Platform.resolve platform

/-- The text of a long description's file. -/
def Disk.text (d : Disk) (file : Path) : Except BuildError String :=
  match d.read file with
  | .error cause => .error (.readme file cause)
  | .ok content =>
    match Utf8.decode? content with
    | some text => .ok text
    | none => .error (.readme file .contentNotUtf8)

/-- The text of a long description. -/
def Disk.description (d : Disk) : Option LongDescription → Except BuildError (Option String)
  | none => .ok none
  | some (.inline text) => .ok (some text)
  | some (.readme file) => (d.text file).map some

namespace WrapRequest

/-- The directory that the wheel goes into. -/
def directory (request : WrapRequest) (config : Config) : Path :=
  request.outputDir.getD config.outputDir

/-- The request with a tag and a long description. -/
def settle (request : WrapRequest) (config : Config) (platform : PlatformTag)
    (longDescription : Option String) : BuildRequest where
  name := request.name
  version := request.version
  binary := request.binary
  platform := platform
  entryPoint := request.entryPoint
  description := request.description
  author := request.author
  license := request.license
  url := request.url
  longDescription := longDescription
  outputDir := request.directory config

/-- The request with everything settled. -/
def settled (request : WrapRequest) (config : Config) (m : Machine) (d : Disk) :
    Except BuildError BuildRequest :=
  match request.platform.tag m with
  | .error error => .error (.platform error)
  | .ok tag => (d.description request.longDescription).map (request.settle config tag)

end WrapRequest

/-- How a run ends, and the disk with it. -/
def Disk.wrap (config : Config) (request : WrapRequest) (codec : Zip.Codec) (m : Machine)
    (d : Disk) : Outcome × Disk :=
  if Wrap.lacksName request then (Wrap.invalidRequest, d)
  else
    match request.settled config m d with
    | .error error => (Wrap.errorOutcome error, d)
    | .ok settled =>
      match d.build settled config.epoch codec with
      | (.error error, e) => (Wrap.errorOutcome error, e)
      | (.ok built, e) => (Wrap.successOutcome settled built, e)

theorem WrapRequest.settled_eq_ok_iff {request : WrapRequest} {config : Config} {m : Machine}
    {d : Disk} {settled : BuildRequest} : request.settled config m d = .ok settled ↔
    ∃ tag longDescription, request.platform.tag m = .ok tag ∧
      d.description request.longDescription = .ok longDescription ∧
      settled = request.settle config tag longDescription := by
  unfold WrapRequest.settled
  cases request.platform.tag m with
  | error error => simp
  | ok tag =>
    cases d.description request.longDescription with
    | error error => simp [Except.map]
    | ok longDescription => simp [Except.map, eq_comm]

/-- A run that ends with an error is no success. -/
theorem Wrap.status_errorOutcome_ne_ok (error : BuildError) :
    (Wrap.errorOutcome error).status ≠ .ok := by
  unfold Wrap.errorOutcome
  by_cases he : error.isUserError = true
  · simp [he]
  · simp [he]

/-- The four ways in which a run can end. -/
theorem Disk.wrap_cases {config : Config} {request : WrapRequest} {codec : Zip.Codec}
    {m : Machine} {d e : Disk} {o : Outcome} (h : d.wrap config request codec m = (o, e)) :
    (Wrap.lacksName request = true ∧ o = Wrap.invalidRequest ∧ e = d) ∨
    Wrap.lacksName request = false ∧
      ((∃ error, request.settled config m d = .error error ∧ o = Wrap.errorOutcome error ∧ e = d) ∨
        ∃ settled, request.settled config m d = .ok settled ∧
          ((∃ error, d.build settled config.epoch codec = (.error error, e) ∧
              o = Wrap.errorOutcome error) ∨
            ∃ built, d.build settled config.epoch codec = (.ok built, e) ∧
              o = Wrap.successOutcome settled built)) := by
  unfold Disk.wrap at h
  split at h
  · next hn =>
    cases h
    exact .inl ⟨hn, rfl, rfl⟩
  · next hn =>
    refine .inr ⟨by simpa using hn, ?_⟩
    split at h
    · next error hs =>
      cases h
      exact .inl ⟨error, hs, rfl, rfl⟩
    · next settled hs =>
      refine .inr ⟨settled, hs, ?_⟩
      split at h
      · next error b hb =>
        cases h
        exact .inl ⟨error, hb, rfl⟩
      · next built b hb =>
        cases h
        exact .inr ⟨built, hb, rfl⟩

/-! ## The run ends as the functions say -/

namespace Wrap

open Simulation

variable {m : Machine} {d : Disk}

theorem ends_resolve (input : String) :
    Ends (resolve (m := Simulation) input).run m d
      ((Platform.resolve input).mapError .platform) d := by
  unfold resolve
  cases Platform.resolve input with
  | error error => exact .run_throw _
  | ok tag => exact (Build.ends_report _).run_bind (.run_pure tag)

theorem ends_resolveChoice (choice : PlatformChoice) :
    Ends (resolveChoice (m := Simulation) choice).run m d
      ((choice.tag m).mapError .platform) d := by
  cases choice with
  | explicit input => exact ends_resolve input
  | detect =>
    refine ends_machine.run_lift.run_bind ?_
    unfold PlatformChoice.tag
    cases Platform.ofHost m.os m.arch with
    | error error => exact .run_throw _
    | ok platform => exact (Build.ends_report _).run_bind (ends_resolve platform)

theorem ends_readText (file : Path) :
    Ends (readText (m := Simulation) file).run m d (d.text file) d := by
  have hf := ends_readFile (m := m) (d := d) file
  unfold readText Disk.text
  cases hd : d.read file with
  | error cause =>
    rw [hd] at hf
    exact (Build.ends_attempt_error hf).run_bind_error
  | ok content =>
    rw [hd] at hf
    refine (Build.ends_attempt_ok hf).run_bind ?_
    dsimp only
    cases Utf8.decode? content with
    | none => exact .run_throw _
    | some text => exact .run_pure text

theorem ends_readDescription (description : Option LongDescription) :
    Ends (readDescription (m := Simulation) description).run m d (d.description description) d := by
  match description with
  | none => exact .run_pure none
  | some (.inline text) => exact .run_pure (some text)
  | some (.readme file) => exact (ends_readText file).run_map some

end Wrap

open Simulation

variable {m : Machine} {d : Disk}

theorem ends_prepare (config : Config) (request : WrapRequest) :
    Ends (prepare (m := Simulation) config request).run m d (request.settled config m d) d := by
  have hc := Wrap.ends_resolveChoice (m := m) (d := d) request.platform
  unfold prepare WrapRequest.settled
  cases ht : request.platform.tag m with
  | error error =>
    rw [ht] at hc
    exact hc.run_bind_error
  | ok tag =>
    rw [ht] at hc
    refine hc.run_bind ?_
    have hl := Wrap.ends_readDescription (m := m) (d := d) request.longDescription
    dsimp only
    cases hd : d.description request.longDescription with
    | error error =>
      rw [hd] at hl
      exact hl.run_bind_error
    | ok longDescription =>
      rw [hd] at hl
      exact hl.run_bind ((Build.ends_report _).run_bind (.run_pure _))

/-- A run ends as is said of it, and leaves the disk that is said to be left. -/
theorem ends_wrap (config : Config) (request : WrapRequest) (codec : Zip.Codec) (m : Machine)
    (d : Disk) : Ends (wrap (m := Simulation) config request codec) m d
      (d.wrap config request codec m).1 (d.wrap config request codec m).2 := by
  unfold wrap Disk.wrap
  by_cases hn : Wrap.lacksName request = true
  · rw [if_pos hn, if_pos hn]
    exact .pure _
  rw [if_neg hn, if_neg hn]
  have hp := ends_prepare (m := m) (d := d) config request
  cases hs : request.settled config m d with
  | error error =>
    rw [hs] at hp
    exact Ends.bind hp.run_bind_error (.pure _)
  | ok settled =>
    rw [hs] at hp
    have hb := ends_build settled config.epoch codec m d
    dsimp only
    rcases hd : d.build settled config.epoch codec with ⟨r, e⟩
    rw [hd] at hb
    cases r with
    | error error => exact Ends.bind (hp.run_bind hb.run_bind_error) (.pure _)
    | ok built => exact Ends.bind (hp.run_bind (hb.run_bind (.run_pure _))) (.pure _)

/-- A run that is at hand ended as is said of runs. -/
theorem Disk.wrap_eq_of_run {config : Config} {request : WrapRequest} {codec : Zip.Codec}
    {w w' : World} {o : Outcome}
    (h : (Wheelwright.wrap (m := Simulation) config request codec).run w = (o, w')) :
    w.disk.wrap config request codec w.machine = (o, w'.disk) :=
  (ends_wrap config request codec w.machine w.disk).eq_of_run h

/-- A run succeeds if the request can be settled and the build succeeds. -/
theorem Disk.exists_run_wrap_ok {config : Config} {request : WrapRequest} {codec : Zip.Codec}
    {w : World} {e : Disk} {settled : BuildRequest} {built : BuiltWheel}
    (hn : Wrap.lacksName request = false)
    (hs : request.settled config w.machine w.disk = .ok settled)
    (hb : w.disk.build settled config.epoch codec = (.ok built, e)) :
    ∃ w', (Wheelwright.wrap (m := Simulation) config request codec).run w =
      (Wrap.successOutcome settled built, w') ∧ w'.disk = e := by
  have hw := ends_wrap config request codec w.machine w.disk
  have he : w.disk.wrap config request codec w.machine =
      (Wrap.successOutcome settled built, e) := by
    unfold Disk.wrap
    rw [hn, if_neg Bool.false_ne_true]
    simp only [hs, hb]
  rw [he] at hw
  obtain ⟨journal, hr⟩ := hw.exists_run w.journal
  exact ⟨_, hr, rfl⟩

end Wheelwright
