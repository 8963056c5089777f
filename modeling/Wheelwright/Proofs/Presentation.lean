import Wheelwright.Proofs.CommandLine.Presentation
import Wheelwright.Proofs.Envelope
/-!
# What flags change

A run does what its request says, and the flags for presentation are not part of the request: they
choose what of the outcome is written where (`Exit.Shows`) and which events are in the log
(`shownLevels`). The main statement is `presentation_only`: lines that come from one another by
putting such flags in and taking them out leave the same behind on every machine and end with the
same code, and of two logs one is part of the other.
-/

namespace Wheelwright

open CommandLine

/-! ## Output -/

/-- A text on an output, which is in bold and in the colour with a number if the output is a
terminal, unless the items or the environment ask for plain output. -/
def CommandLine.coloured (items : List Item) (env : Environment) (terminal : Bool)
    (number text : String) : String :=
  if terminal = true ∧ .switch .noColor ∉ items ∧ env.get? "NO_COLOR" = none then
    "\x1b[1m\x1b[" ++ number ++ "m" ++ text ++ "\x1b[39m\x1b[0m"
  else text

/-- The line for a hint on an output, if there is a hint. -/
def CommandLine.hintText (items : List Item) (env : Environment) (terminal : Bool) :
    Option String → String
  | some hint => coloured items env terminal "36" "Hint:" ++ " " ++ hint ++ "\n"
  | none => ""

/-- What is written of an outcome, for a line with these items. -/
structure Exit.Shows (exit : Exit) (items : List Item) (env : Environment) (terminals : Terminals)
    (o : Outcome) : Prop where
  code : exit.code = o.exitCode
  /-- A success is one green line on standard output, or nothing under `-q`. -/
  success : .switch .json ∉ items → o.status = .ok → exit.stderr = "" ∧
    exit.stdout = if .switch .quiet ∈ items then "" else
      coloured items env terminals.stdout "32" ("✔ bin-to-wheel: " ++ o.message) ++ "\n"
  /-- The caller's error is one yellow line on standard error, and one more for its hint. -/
  userError : .switch .json ∉ items → o.status = .userError → exit.stdout = "" ∧
    exit.stderr =
      coloured items env terminals.stderr "33" ("✗ bin-to-wheel: " ++ o.message) ++ "\n" ++
        hintText items env terminals.stderr o.hint?
  /-- Any other error is a red one, and one more for its hint. -/
  failure : .switch .json ∉ items → o.status = .failure → exit.stdout = "" ∧
    exit.stderr =
      coloured items env terminals.stderr "31" ("✖ bin-to-wheel: " ++ o.message) ++ "\n" ++
        hintText items env terminals.stderr o.hint?

namespace CommandLine.Invocation.StyledBy

variable {i : Invocation} {items : List Item}

theorem painted_choose (h : i.StyledBy items) (env : Environment) (terminal : Bool) :
    (Style.choose i.noColor env.asksForNoColor terminal).painted = true ↔
      terminal = true ∧ .switch .noColor ∉ items ∧ env.get? "NO_COLOR" = none := by
  have hn : i.noColor = false ↔ .switch .noColor ∉ items := by
    rw [← h.noColor, Bool.not_eq_true]
  simp [Style.choose, Environment.asksForNoColor, hn, and_comm]

/-- A message that is told behind the program's name stands behind the sign of the status, and the
line is painted in the colour of the status. -/
theorem statusLine_choose (h : i.StyledBy items) (env : Environment) (terminal : Bool)
    {message : String} (hm : statusMessage message = "bin-to-wheel: " ++ message)
    (status : Status) :
    (Style.choose i.noColor env.asksForNoColor terminal).statusLine status
        (statusMessage message) =
      coloured items env terminal (Style.colour status).code
        (Style.sign status ++ " bin-to-wheel: " ++ message) := by
  have hname : " bin-to-wheel: " = " " ++ "bin-to-wheel: " := rfl
  simp only [Style.statusLine, Style.bold, coloured, h.painted_choose, hm, hname,
    String.append_assoc]

/-- Of a line for a hint only the first word is painted. -/
theorem hintLine_choose (h : i.StyledBy items) (env : Environment) (terminal : Bool)
    (hint : String) : (Style.choose i.noColor env.asksForNoColor terminal).hintLine hint ++ "\n" =
      hintText items env terminal (some hint) := by
  simp only [Style.hintLine, Style.bold, hintText, coloured, h.painted_choose]
  rfl

section shown

variable {o : Outcome}

theorem code_present (i : Invocation) (env : Environment) (terminals : Terminals) (o : Outcome) :
    (Program.present env terminals i o).code = o.exitCode := by
  unfold Program.present
  split
  · rfl
  · dsimp only
    split <;> rfl

theorem present_ok (h : i.StyledBy items) (env : Environment) (terminals : Terminals)
    (hm : statusMessage o.message = "bin-to-wheel: " ++ o.message)
    (hj : .switch .json ∉ items) (ho : o.status = .ok) :
    Program.present env terminals i o = ⟨o.exitCode,
      if .switch .quiet ∈ items then "" else
        coloured items env terminals.stdout "32" ("✔ bin-to-wheel: " ++ o.message) ++ "\n",
      ""⟩ := by
  have hjson : ¬i.json = true := mt h.json.1 hj
  rw [Program.present, if_neg hjson]
  dsimp only
  rw [if_pos ho, h.statusLine_choose _ _ hm, ho]
  simp only [h.quiet]
  rfl

theorem present_error (h : i.StyledBy items) (env : Environment) (terminals : Terminals)
    (hm : statusMessage o.message = "bin-to-wheel: " ++ o.message)
    (hj : .switch .json ∉ items) (ho : o.status ≠ .ok) :
    Program.present env terminals i o = ⟨o.exitCode, "",
      coloured items env terminals.stderr (Style.colour o.status).code
          (Style.sign o.status ++ " bin-to-wheel: " ++ o.message) ++ "\n" ++
        hintText items env terminals.stderr o.hint?⟩ := by
  have hjson : ¬i.json = true := mt h.json.1 hj
  rw [Program.present, if_neg hjson]
  dsimp only
  rw [if_neg ho, h.statusLine_choose _ _ hm]
  cases o.hint? with
  | none => rfl
  | some hint => rw [← h.hintLine_choose]

/-- An outcome whose message is told behind the program's name is shown as the items of the line
say. -/
theorem shows (h : i.StyledBy items) (env : Environment) (terminals : Terminals)
    (hm : statusMessage o.message = "bin-to-wheel: " ++ o.message) :
    (Program.present env terminals i o).Shows items env terminals o := by
  constructor
  case code => exact code_present i env terminals o
  case success =>
    intro hj ho
    rw [h.present_ok env terminals hm hj ho]
    exact ⟨rfl, rfl⟩
  case userError =>
    intro hj ho
    rw [h.present_error env terminals hm hj (by simp [ho]), ho]
    exact ⟨rfl, rfl⟩
  case failure =>
    intro hj ho
    rw [h.present_error env terminals hm hj (by simp [ho]), ho]
    exact ⟨rfl, rfl⟩

end shown

end CommandLine.Invocation.StyledBy

example : (Style.choose false false true).statusLine .failure "no wheel" =
      "\x1b[1m\x1b[31m✖ no wheel\x1b[39m\x1b[0m" ∧
    (Style.choose true false true).hintLine "try again" = "Hint: try again" := by decide

/-! ## Log -/

/-- How many levels below warnings the items ask for: one for each `-v`, and all three for
`--trace`. -/
def CommandLine.shownLevels (items : List Item) : Nat :=
  if .switch .trace ∈ items then 3 else min 3 (items.count .verbose)

theorem CommandLine.Invocation.weight_threshold (i : Invocation) :
    i.threshold.weight = if i.trace then 0 else 3 - min 3 i.verbosity := by
  unfold threshold
  cases i.trace with
  | true => rfl
  | false =>
    rw [if_neg Bool.false_ne_true, if_neg Bool.false_ne_true]
    split
    · next hv => rw [hv]; rfl
    · next hv => rw [hv]; rfl
    · next hv => rw [hv]; rfl
    · next h₀ h₁ h₂ =>
      have hfew : i.verbosity ≠ 0 ∧ i.verbosity ≠ 1 ∧ i.verbosity ≠ 2 := ⟨h₀, h₁, h₂⟩
      have hmin : min 3 i.verbosity = 3 := by omega
      rw [hmin]
      rfl

/-- Each level that is asked for lets events through that weigh one less. -/
theorem CommandLine.Invocation.StyledBy.weight_threshold {i : Invocation} {items : List Item}
    (h : i.StyledBy items) : i.threshold.weight = 3 - shownLevels items := by
  rw [i.weight_threshold, shownLevels]
  by_cases ht : .switch .trace ∈ items
  · rw [if_pos (h.trace.2 ht), if_pos ht]
  · have hi : ¬i.trace = true := by rwa [h.trace]
    rw [if_neg hi, if_neg ht, h.verbosity]
    show 3 - min 3 (min _ 255) = _
    omega

example : shownLevels [.verbose, .switch .quiet, .verbose] = 2 ∧
    shownLevels [.verbose, .switch .trace] = 3 := by decide

theorem Level.weight_injective : Function.Injective weight := by
  intro a b h
  cases a <;> cases b <;> first | rfl | cases h

namespace Program

/-- With a lower threshold the log has the same lines and more between them. -/
theorem logLines_sublist {low high : Level} (h : high.weight ≤ low.weight) (events : List Event) :
    (logLines low events).Sublist (logLines high events) := by
  unfold logLines
  apply List.Sublist.map
  apply List.monotone_filter_right
  intro e he
  simp only [Event.isShownAt, decide_eq_true_eq] at he ⊢
  exact Nat.le_trans h he

/-- The log of a run has the events of the world that it leaves. -/
theorem simulate_eq {vars : Variables} {args : List Bytes} {machine : Machine} {disk : Disk}
    {codec : Zip.Codec} {i : Invocation} {exit : Exit} {w' : World} (hi : parse args = .ok i)
    (h : (run (m := Simulation) vars ⟨false, false⟩ args codec).run ⟨machine, disk, []⟩ =
      (exit, w')) :
    simulate vars args machine disk codec = ⟨exit, logLines i.threshold w'.journal, w'⟩ := by
  have hrun : run (m := Simulation) vars ⟨false, false⟩ args codec ⟨machine, disk, []⟩ =
    (exit, w') := h
  rw [simulate, hrun, threshold, hi]

end Program

/-! ## Two lines -/

section restyled

variable {args args' : List Bytes} {items items' : List Item} {i i' : Invocation}

/-- On any machine, two lines that ask for the same leave the same behind and end with the same
code. If the variables are text each shows the outcome as its items say; if not, both are broken off
in the same way before anything is done. -/
theorem shows_run {σ : Type} [Host (StateM σ)] (hi : parse args = .ok i)
    (hi' : parse args' = .ok i') (hr : i'.request = i.request) (hs : i.StyledBy items)
    (hs' : i'.StyledBy items') (codec : Zip.Codec) (vars : Variables) (terminals : Terminals)
    (s : σ) :
    ∃ exit exit' s',
      (Program.run (m := StateM σ) vars terminals args codec).run s = (exit, s') ∧
      (Program.run (m := StateM σ) vars terminals args' codec).run s = (exit', s') ∧
      exit'.code = exit.code ∧
      (vars.IsText → ∃ (env : Environment) (s₁ : σ) (o : Outcome), vars = env.toVariables ∧
        (Program.reportAll (m := StateM σ) (Config.warnings env)).run s = ((), s₁) ∧
        (wrap (m := StateM σ) (Config.ofEnvironment env) i.request codec).run s₁ = (o, s') ∧
        exit.Shows items env terminals o ∧ exit'.Shows items' env terminals o) ∧
      (¬vars.IsText → s' = s ∧ exit' = exit ∧ exit.code = 101 ∧ exit.stdout = "") := by
  by_cases hv : vars.IsText
  · obtain ⟨env, he⟩ := Variables.isText_iff.1 hv
    obtain rfl := Variables.capture?_eq_some_iff.1 he
    rcases hw : (Program.reportAll (m := StateM σ) (Config.warnings env)).run s with ⟨⟨⟩, s₁⟩
    rcases ho : (wrap (m := StateM σ) (Config.ofEnvironment env) i.request codec).run s₁ with
      ⟨o, s'⟩
    have ho' : (wrap (m := StateM σ) (Config.ofEnvironment env) i'.request codec).run s₁ =
        (o, s') := by
      rw [hr, ho]
    have hm := concludes_wrap (Config.ofEnvironment env) i.request codec s₁
    rw [ho] at hm
    have hshows := hs.shows env terminals hm.statusMessage_eq
    have hshows' := hs'.shows env terminals hm.statusMessage_eq
    exact ⟨_, _, s', run_of_parse_ok terminals hi hw ho, run_of_parse_ok terminals hi' hw ho',
      hshows'.code.trans hshows.code.symm, fun _ => ⟨env, s₁, o, rfl, hw, ho, hshows, hshows'⟩,
      fun hn => absurd hv hn⟩
  · exact ⟨_, _, s, run_of_not_isText hi hv terminals s, run_of_not_isText hi' hv terminals s, rfl,
      fun h => absurd h hv, fun _ => ⟨rfl, rfl, rfl, rfl⟩⟩

/-- On a simulated machine, two lines that ask for the same leave the same world behind and end with
the same code; the log of the one that asks for fewer levels is part of the other's, and if both ask
for the same levels in the same way, the logs are the same. -/
theorem log_simulate (hi : parse args = .ok i) (hi' : parse args' = .ok i')
    (hr : i'.request = i.request) (hs : i.StyledBy items) (hs' : i'.StyledBy items')
    (codec : Zip.Codec) (vars : Variables) (machine : Machine) (disk : Disk) :
    (Program.simulate vars args' machine disk codec).world =
        (Program.simulate vars args machine disk codec).world ∧
      (Program.simulate vars args' machine disk codec).exit.code =
        (Program.simulate vars args machine disk codec).exit.code ∧
      (shownLevels items ≤ shownLevels items' →
        (Program.simulate vars args machine disk codec).log.Sublist
          (Program.simulate vars args' machine disk codec).log) ∧
      (shownLevels items = shownLevels items' →
        (Program.simulate vars args' machine disk codec).log =
          (Program.simulate vars args machine disk codec).log) := by
  obtain ⟨exit, exit', w', hrun, hrun', hcode, -, -⟩ :=
    shows_run hi hi' hr hs hs' codec vars ⟨false, false⟩ (⟨machine, disk, []⟩ : World)
  rw [Program.simulate_eq hi hrun, Program.simulate_eq hi' hrun']
  refine ⟨rfl, hcode, ?_, ?_⟩
  · intro hle
    apply Program.logLines_sublist
    rw [hs.weight_threshold, hs'.weight_threshold]
    omega
  · intro heq
    have ht : i'.threshold = i.threshold := by
      apply Level.weight_injective
      rw [hs.weight_threshold, hs'.weight_threshold, heq]
    show Program.logLines i'.threshold w'.journal = Program.logLines i.threshold w'.journal
    rw [ht]

/-- Flags for presentation change nothing that is done. A line that comes from an accepted one by
putting such flags in and taking them out, in all places where they may stand, is accepted exactly
if no flag is on it twice. Then a run of the one and a run of the other, on any machine and with any
variables, end in the same state and with the same code, and each writes of the outcome what its
items say, unless a variable is no text: then both are broken off, in the same way and with nothing
done. On a simulated machine the log for fewer levels is part of the log for more, and only `-v` and
`--trace` matter for it. -/
theorem presentation_only (h : parse args = .ok i) (hr : Restyled args args') :
    ∃ items items', Written items args ∧ Written items' args' ∧
      ((∃ i', parse args' = .ok i') ↔ ∀ s, occurrences items' (.switch s) ≤ 1) ∧
      ((∃ i', parse args' = .ok i') →
        (∀ (σ : Type) [Host (StateM σ)] (codec : Zip.Codec) (vars : Variables)
            (terminals : Terminals) (s : σ), ∃ exit exit' s',
          (Program.run (m := StateM σ) vars terminals args codec).run s = (exit, s') ∧
          (Program.run (m := StateM σ) vars terminals args' codec).run s = (exit', s') ∧
          exit'.code = exit.code ∧
          (vars.IsText → ∃ (env : Environment) (s₁ : σ) (o : Outcome), vars = env.toVariables ∧
            (Program.reportAll (m := StateM σ) (Config.warnings env)).run s = ((), s₁) ∧
            (wrap (m := StateM σ) (Config.ofEnvironment env) i.request codec).run s₁ = (o, s') ∧
            exit.Shows items env terminals o ∧ exit'.Shows items' env terminals o) ∧
          (¬vars.IsText → s' = s ∧ exit' = exit ∧ exit.code = 101 ∧ exit.stdout = "")) ∧
        ∀ (codec : Zip.Codec) (vars : Variables) (machine : Machine) (disk : Disk),
          (Program.simulate vars args' machine disk codec).world =
              (Program.simulate vars args machine disk codec).world ∧
            (Program.simulate vars args' machine disk codec).exit.code =
              (Program.simulate vars args machine disk codec).exit.code ∧
            (shownLevels items ≤ shownLevels items' →
              (Program.simulate vars args machine disk codec).log.Sublist
                (Program.simulate vars args' machine disk codec).log) ∧
            (items'.count .verbose = items.count .verbose →
              (.switch .trace ∈ items' ↔ .switch .trace ∈ items) →
              (Program.simulate vars args' machine disk codec).log =
                (Program.simulate vars args machine disk codec).log)) := by
  obtain ⟨items, items', hw, hw', hs, hiff, hall⟩ := hr.parse_iff h
  refine ⟨items, items', hw, hw', hiff, ?_⟩
  rintro ⟨i', h'⟩
  obtain ⟨hrequest, hs'⟩ := hall i' h'
  refine ⟨fun σ _ codec vars terminals s =>
    shows_run h h' hrequest hs hs' codec vars terminals s, ?_⟩
  intro codec vars machine disk
  obtain ⟨hworld, hcode, hsublist, hsame⟩ :=
    log_simulate h h' hrequest hs hs' codec vars machine disk
  refine ⟨hworld, hcode, hsublist, ?_⟩
  intro hcount htrace
  apply hsame
  simp only [shownLevels, hcount, htrace]

end restyled

/-! ## A line with other flags -/

namespace Flagged

/-- An option whose value is an argument of its own. -/
def front : List Bytes := ["--name", "x"].map Utf8.encode

/-- The other options of a build. -/
def back : List Bytes := ["--version=1", "--binary=t", "--platform=win_amd64"].map Utf8.encode

/-- A line that ends in `-q`. -/
def quiet : List Bytes := front ++ back ++ [cluster [.switch .quiet]]

/-- The same with `-vv` at its start and `--json` in the middle instead. -/
def loud : List Bytes :=
  cluster [.verbose, .verbose] :: (front ++ Item.argument (.switch .json) :: back)

/-- What the first line says. -/
def quietItems : List Item :=
  [.value .name (Utf8.encode "x"), .value .version (Utf8.encode "1"),
    .value .binary (Utf8.encode "t"), .value .platform (Utf8.encode "win_amd64"), .switch .quiet]

/-- What the second line says. -/
def loudItems : List Item :=
  [.verbose, .verbose, .value .name (Utf8.encode "x"), .switch .json,
    .value .version (Utf8.encode "1"), .value .binary (Utf8.encode "t"),
    .value .platform (Utf8.encode "win_amd64")]

theorem written_quiet : Written quietItems quiet := scan_eq_iff.1 (by decide +kernel)

theorem written_loud : Written loudItems loud := scan_eq_iff.1 (by decide +kernel)

/-- One flag is taken out and two are put in. -/
theorem restyled : Restyled quiet loud := by
  have hout : Inserted (front ++ back) quiet := by
    have hflag : Flag [.switch .quiet] (cluster [.switch .quiet]) :=
      .letters (by decide) (by decide) (by decide)
    have hback : Admits (front ++ back) := ⟨fun k => by cases k <;> decide, by decide⟩
    simpa [quiet] using @Inserted.flag _ [] _ _ hback hflag
  have hstart : Inserted (front ++ back) (cluster [.verbose, .verbose] :: (front ++ back)) :=
    .flag .nil (.letters (by decide) (by decide) (by decide))
  have hmiddle : Inserted (cluster [.verbose, .verbose] :: (front ++ back)) loud :=
    @Inserted.flag (cluster [.verbose, .verbose] :: front) back _ _
      ⟨fun k => by cases k <;> decide, by decide⟩ (.long rfl)
  exact ((Relation.ReflTransGen.single (.inr hout)).tail (.inl hstart)).tail (.inl hmiddle)

end Flagged

/-- Both lines are accepted, and the second one's log has more. -/
theorem presentation_only_flagged :
    (∃ i, parse Flagged.quiet = .ok i) ∧ (∃ i, parse Flagged.loud = .ok i) ∧
      (Program.simulate Escaped.environment Flagged.loud Escaped.world.machine
          Escaped.world.disk Zip.stored).world =
        (Program.simulate Escaped.environment Flagged.quiet Escaped.world.machine
          Escaped.world.disk Zip.stored).world ∧
      (Program.simulate Escaped.environment Flagged.quiet Escaped.world.machine
          Escaped.world.disk Zip.stored).log.Sublist
        (Program.simulate Escaped.environment Flagged.loud Escaped.world.machine
          Escaped.world.disk Zip.stored).log := by
  have hok : (parse Flagged.quiet).isOk = true := by decide +kernel
  obtain ⟨i, hi⟩ := exists_of_isOk hok
  obtain ⟨items, items', hw, hw', hiff, hall⟩ := presentation_only hi Flagged.restyled
  obtain rfl := Flagged.written_quiet.eq hw
  obtain rfl := Flagged.written_loud.eq hw'
  have honce : ∀ s, occurrences Flagged.loudItems (.switch s) ≤ 1 := by
    intro s
    cases s <;> decide
  have hloud := hiff.2 honce
  obtain ⟨-, hrun⟩ := hall hloud
  obtain ⟨hworld, -, hlog, -⟩ :=
    hrun Zip.stored Escaped.environment Escaped.world.machine Escaped.world.disk
  exact ⟨⟨i, hi⟩, hloud, hworld, hlog (by decide)⟩

end Wheelwright
