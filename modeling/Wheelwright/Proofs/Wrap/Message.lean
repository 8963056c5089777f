import Wheelwright.Wrap
/-!
# What a run says of itself

The program's name is put in front of every message that does not begin with it. The messages of
runs do not: names, paths and the words of the system come after words of the program. `Host` here
is any machine that keeps a state, with whatever faults. The main statement is `concludes_wrap`: a
run ends in one of the ways `Wrap.Conclusion` lists, and by `Wrap.Conclusion.statusMessage_eq` its
message is told in full behind the name.
-/

namespace Wheelwright

/-! ## Errors of computations -/

section failing

variable {σ α β ε : Type} {P : ε → Prop} {x : ExceptT ε (StateM σ) α}
  {g : α → ExceptT ε (StateM σ) β}

/-- If the computation fails, then with such an error. -/
def FailsOnly (P : ε → Prop) (x : ExceptT ε (StateM σ) α) : Prop :=
  ∀ s error, (x.run.run s).1 = .error error → P error

namespace FailsOnly

theorem pure (a : α) : FailsOnly P (pure a : ExceptT ε (StateM σ) α) := by
  intro s error h
  cases h

theorem throw {error : ε} (h : P error) :
    FailsOnly P (throw error : ExceptT ε (StateM σ) α) := by
  intro s error' h'
  cases h'
  exact h

theorem lift (x : StateM σ α) : FailsOnly P (ExceptT.lift x : ExceptT ε (StateM σ) α) := by
  intro s error h
  cases h

theorem bind (hx : FailsOnly P x) (hg : ∀ a, FailsOnly P (g a)) : FailsOnly P (x >>= g) := by
  intro s error h
  change ((ExceptT.bindCont g (x.run.run s).1).run (x.run.run s).2).1 = .error error at h
  cases hr : (x.run.run s).1 with
  | ok a =>
    rw [hr] at h
    exact hg a _ error h
  | error error' =>
    rw [hr] at h
    cases h
    exact hx s error hr

theorem map {k : α → β} (hx : FailsOnly P x) : FailsOnly P (k <$> x) := by
  rw [map_eq_pure_bind]
  exact hx.bind fun a => .pure (k a)

end FailsOnly
end failing

/-! ## Errors of a build -/

/-- The words that tell what was being done when a wheel could not be written. -/
def Build.steps : List String := ["creating output directory ", "staging wheel in ", "writing "]

/-- If a wheel could not be written, the error begins with what was being done. -/
def BuildError.NamesStep : BuildError → Prop
  | .io context _ => ∃ step ∈ Build.steps, step.toList <+: context.toList
  | _ => True

variable {σ : Type}

namespace Build

theorem namesStep_io {step : String} (h : step ∈ steps) (what : String) (cause : Fault) :
    BuildError.NamesStep (.io (step ++ what) cause) := by
  refine ⟨step, h, ?_⟩
  rw [String.toList_append]
  exact List.prefix_append _ _

theorem failsOnly_attempt {α : Type} {P : BuildError → Prop} (action : StateM σ (Except Fault α))
    {error : Fault → BuildError} (h : ∀ cause, P (error cause)) :
    FailsOnly P (attempt action error) := by
  refine .bind (.lift action) fun r => ?_
  cases r with
  | ok a => exact .pure a
  | error cause => exact .throw (h cause)

theorem namesStep_of_binaryName {binary : Path} {error : BuildError}
    (h : binaryName binary = .error error) : error.NamesStep := by
  unfold binaryName at h
  split at h
  · cases h
    trivial
  · split at h
    · cases h
      trivial
    · cases h

theorem failsOnly_binaryName (binary : Path) :
    FailsOnly BuildError.NamesStep (binaryName binary : ExceptT BuildError (StateM σ) String) := by
  cases h : binaryName binary with
  | ok name => exact .pure name
  | error error => exact .throw (namesStep_of_binaryName h)

variable [Host (StateM σ)]

theorem failsOnly_report {P : BuildError → Prop} (e : Event) :
    FailsOnly P (report (m := StateM σ) e) :=
  .lift (Host.log e)

theorem failsOnly_reportAll {P : BuildError → Prop} (es : List Event) :
    FailsOnly P (reportAll (m := StateM σ) es) := by
  induction es with
  | nil => exact .pure ()
  | cons e es ih => exact .bind (failsOnly_report e) fun _ => ih

theorem failsOnly_readBinary (binary : Path) :
    FailsOnly BuildError.NamesStep (readBinary (m := StateM σ) binary) := by
  refine .bind (.lift _) fun regular => ?_
  cases regular with
  | false => exact .throw trivial
  | true =>
    refine .bind (failsOnly_attempt _ fun _ => trivial) fun payload => ?_
    exact .bind (failsOnly_report _) fun _ => .pure payload

theorem failsOnly_storeAll (codec : Zip.Codec) (members : List Member) :
    FailsOnly BuildError.NamesStep (storeAll (m := StateM σ) codec members) := by
  induction members with
  | nil => exact .pure ()
  | cons member members ih =>
    have hstep : "writing " ∈ steps := by decide
    unfold storeAll
    by_cases hc : Zip.largestMember < member.content.length
    · rw [if_pos hc]
      exact .throw (namesStep_io hstep member.path .memberTooLarge)
    rw [if_neg hc]
    refine .bind (failsOnly_report _) fun _ => ?_
    by_cases hp : Zip.largestMember < (codec.pack member.content).length
    · rw [if_pos hp]
      exact .throw trivial
    rw [if_neg hp]
    exact ih

theorem failsOnly_packWith (codec : Zip.Codec) (plan : Plan) (epoch : Option Int) :
    FailsOnly BuildError.NamesStep (packWith (m := StateM σ) codec plan epoch) := by
  refine .bind (failsOnly_reportAll _) fun _ => ?_
  exact .bind (failsOnly_storeAll codec plan.members) fun _ => .pure _

theorem failsOnly_persist (dir path : Path) (content : Bytes) :
    FailsOnly BuildError.NamesStep (persist (m := StateM σ) dir path content) := by
  have hstage : "staging wheel in " ∈ steps := by decide
  have hwrite : "writing " ∈ steps := by decide
  refine .bind (failsOnly_attempt _ (namesStep_io hstage dir.display)) fun staged => ?_
  refine .bind (.lift _) fun r => ?_
  cases r with
  | ok => exact .pure ()
  | error cause =>
    exact .bind (.lift _) fun _ => .throw (namesStep_io hwrite path.display cause)

end Build

variable [Host (StateM σ)]

theorem failsOnly_build (request : BuildRequest) (epoch : Option Int) (codec : Zip.Codec) :
    FailsOnly BuildError.NamesStep (build (m := StateM σ) request epoch codec) := by
  have hmake : "creating output directory " ∈ Build.steps := by decide
  refine .bind (Build.failsOnly_readBinary _) fun payload => ?_
  refine .bind (Build.failsOnly_binaryName _) fun name => ?_
  refine .bind (Build.failsOnly_reportAll _) fun _ => ?_
  refine .bind (Build.failsOnly_packWith codec _ epoch) fun archive => ?_
  refine .bind (Build.failsOnly_attempt _ (Build.namesStep_io hmake _)) fun _ => ?_
  refine .bind (Build.failsOnly_persist _ _ archive) fun _ => ?_
  exact .bind (Build.failsOnly_report _) fun _ => .pure _

/-! ## Errors of a run -/

namespace Wrap

theorem failsOnly_resolve (input : String) :
    FailsOnly BuildError.NamesStep (resolve (m := StateM σ) input) := by
  unfold resolve
  cases Platform.resolve input with
  | ok tag => exact .bind (Build.failsOnly_report _) fun _ => .pure tag
  | error error => exact .throw trivial

theorem failsOnly_resolveChoice (choice : PlatformChoice) :
    FailsOnly BuildError.NamesStep (resolveChoice (m := StateM σ) choice) := by
  cases choice with
  | explicit input => exact failsOnly_resolve input
  | detect =>
    refine .bind (.lift _) fun machine => ?_
    cases Platform.ofHost machine.os machine.arch with
    | ok platform => exact .bind (Build.failsOnly_report _) fun _ => failsOnly_resolve platform
    | error error => exact .throw trivial

theorem failsOnly_readDescription (description : Option LongDescription) :
    FailsOnly BuildError.NamesStep (readDescription (m := StateM σ) description) := by
  match description with
  | none => exact .pure none
  | some (.inline text) => exact .pure (some text)
  | some (.readme file) =>
    refine .map ?_
    refine .bind (Build.failsOnly_attempt _ fun _ => trivial) fun content => ?_
    cases Utf8.decode? content with
    | none => exact .throw trivial
    | some text => exact .pure text

theorem failsOnly_prepareAndBuild (config : Config) (request : WrapRequest) (codec : Zip.Codec) :
    FailsOnly BuildError.NamesStep (prepareAndBuild (m := StateM σ) config request codec) := by
  have hprepare : FailsOnly BuildError.NamesStep (prepare (m := StateM σ) config request) := by
    refine .bind (failsOnly_resolveChoice _) fun tag => ?_
    refine .bind (failsOnly_readDescription _) fun longDescription => ?_
    exact .bind (Build.failsOnly_report _) fun _ => .pure _
  refine .bind hprepare fun settled => ?_
  exact .bind (failsOnly_build settled config.epoch codec) fun built => .pure (settled, built)

/-- The ways in which a run ends. -/
inductive Conclusion : Outcome → Prop
  | invalid : Conclusion invalidRequest
  | failed {error : BuildError} (h : error.NamesStep) : Conclusion (errorOutcome error)
  | succeeded (settled : BuildRequest) (built : BuiltWheel) :
    Conclusion (successOutcome settled built)

end Wrap

/-- A run, on whatever machine, ends in one of these ways. -/
theorem concludes_wrap (config : Config) (request : WrapRequest) (codec : Zip.Codec) (s : σ) :
    Wrap.Conclusion ((wrap (m := StateM σ) config request codec).run s).1 := by
  unfold wrap
  by_cases hn : Wrap.lacksName request = true
  · rw [if_pos hn]
    exact .invalid
  rw [if_neg hn]
  have hfails := Wrap.failsOnly_prepareAndBuild config request codec s
  rw [StateT.run_bind]
  rcases hr : (prepareAndBuild (m := StateM σ) config request codec).run.run s with ⟨r, s'⟩
  rw [hr] at hfails
  cases r with
  | ok made => exact .succeeded made.1 made.2
  | error error => exact .failed (hfails error rfl)

/-! ## Messages -/

namespace Wrap

/-- The words that messages begin with. -/
def fronts : List String :=
  ["package name and version must not be empty", "Unknown platform `",
    "Unknown platform: no wheel tag for host ", "binary not found or unreadable: ",
    "readme not readable: ", "writing wheel archive: ", "wrote "] ++ Build.steps

/-- Neither do the words begin with the program's name nor the name with the words. -/
theorem apart_of_mem_fronts : ∀ front ∈ fronts,
    ¬programName.toList <+: front.toList ∧ ¬front.toList <+: programName.toList := by
  decide +kernel

/-- A message that begins with such words is told behind the program's name. -/
theorem statusMessage_of_front {front message : String} (hf : front ∈ fronts)
    (h : front.toList <+: message.toList) :
    statusMessage message = programName ++ ": " ++ message := by
  obtain ⟨hname, hfront⟩ := apart_of_mem_fronts front hf
  have hne : message ≠ "" := by
    rintro rfl
    have hempty : front.toList = [] := List.prefix_nil.1 h
    rw [hempty] at hfront
    exact hfront (List.nil_prefix)
  have hother : ¬programName.toList.isPrefixOf message.toList = true := by
    rw [List.isPrefixOf_iff_prefix]
    intro hp
    rcases List.prefix_or_prefix_of_prefix hp h with hp | hp
    · exact hname hp
    · exact hfront hp
  rw [statusMessage, if_neg hne, if_neg hother]

theorem exists_front_append {front : String} (hf : front ∈ fronts) (rest : List Char) :
    ∃ f ∈ fronts, f.toList <+: front.toList ++ rest :=
  ⟨front, hf, List.prefix_append _ rest⟩

theorem exists_front_of_platform (error : PlatformError) :
    ∃ front ∈ fronts, front.toList <+: error.message.toList := by
  -- the message's equations would have Lean put the literals together, which takes long
  delta PlatformError.message
  cases error with
  | unknown input =>
    simp only [String.toList_append, List.append_assoc]
    exact exists_front_append (by simp [fronts]) _
  | unsupportedHost os arch =>
    simp only [String.toList_append, List.append_assoc]
    exact exists_front_append (by simp [fronts]) _

theorem exists_front_of_namesStep {error : BuildError} (h : error.NamesStep) :
    ∃ front ∈ fronts, front.toList <+: error.message.toList := by
  delta BuildError.message
  cases error with
  | platform error => exact exists_front_of_platform error
  | binaryNotFound binary cause =>
    simp only [String.toList_append]
    exact exists_front_append (by simp [fronts]) _
  | readme file cause =>
    simp only [String.toList_append]
    exact exists_front_append (by simp [fronts]) _
  | io context cause =>
    obtain ⟨step, hstep, hp⟩ := h
    refine ⟨step, List.mem_append_right _ hstep, ?_⟩
    simp only [String.toList_append, List.append_assoc]
    exact hp.trans (List.prefix_append _ _)
  | archive cause =>
    simp only [String.toList_append]
    exact exists_front_append (by simp [fronts]) _

/-- The message of a run is told in full behind the program's name. -/
theorem Conclusion.statusMessage_eq {o : Outcome} (h : Conclusion o) :
    statusMessage o.message = programName ++ ": " ++ o.message := by
  cases h with
  | invalid =>
    have hmem : invalidRequest.message ∈ fronts := List.mem_cons_self
    exact statusMessage_of_front hmem List.prefix_rfl
  | failed h =>
    obtain ⟨front, hf, hp⟩ := exists_front_of_namesStep h
    exact statusMessage_of_front hf hp
  | succeeded settled built =>
    refine statusMessage_of_front (by simp [fronts] : "wrote " ∈ fronts) ?_
    simp only [successOutcome, String.toList_append, List.append_assoc]
    exact List.prefix_append _ _

end Wrap

end Wheelwright
