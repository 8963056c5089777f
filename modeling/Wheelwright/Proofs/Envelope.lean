import Wheelwright.Program
import Wheelwright.Proofs.CommandLine.Acceptance
import Wheelwright.Proofs.Environment
import Wheelwright.Proofs.Json.Reading
import Wheelwright.Proofs.Wrap.Message
import Wheelwright.Proofs.Wrap.Report
/-!
# What programs read

With `--json` a run writes an envelope around its outcome. Whatever texts the outcome holds, a
reader of JSON finds the outcome in the output, and nothing else: three fields, of which the message
is the outcome's behind the program's name and the details are the outcome's as they are
(`Exit.Encloses`). The main statement is `json_envelope`.
-/

namespace Wheelwright

/-! ## Outcomes in envelopes -/

/-- The program's name is put in front once. -/
theorem statusMessage_statusMessage (message : String) :
    statusMessage (statusMessage message) = statusMessage message := by
  have hfront : ∀ rest : String, statusMessage (programName ++ rest) = programName ++ rest := by
    intro rest
    have hne : programName ++ rest ≠ "" := by
      simp [programName]
    have hp : programName.toList.isPrefixOf (programName ++ rest).toList = true := by
      rw [List.isPrefixOf_iff_prefix, String.toList_append]
      exact List.prefix_append _ _
    rw [statusMessage, if_neg hne, if_pos hp]
  by_cases hm : message = ""
  · subst hm
    exact hfront ""
  by_cases hp : programName.toList.isPrefixOf message.toList = true
  · have hs : statusMessage message = message := by rw [statusMessage, if_neg hm, if_pos hp]
    rw [hs, hs]
  · have hs : statusMessage message = programName ++ ": " ++ message := by
      rw [statusMessage, if_neg hm, if_neg hp]
    rw [hs, String.append_assoc, hfront]

namespace Outcome

variable {o : Outcome}

theorem field?_response (o : Outcome) : o.response.field? "details" = some o.detailsObject := by
  rw [response, Json.field?_ofFields]
  rfl

/-- The details in an envelope are an object, with the outcome's hint for its hint. -/
theorem exists_detailsObject (o : Outcome) : ∃ fields, o.detailsObject = .object fields ∧
    ((Json.object fields).field? "hint").bind Json.text? = o.hint? := by
  unfold detailsObject hint?
  split
  · next fields hd => exact ⟨fields, rfl, by rw [hd]⟩
  · next hd => exact ⟨[], rfl, by rw [hd]; rfl⟩
  · next other hobject hnull =>
    refine ⟨_, rfl, ?_⟩
    have hnone : o.details.field? "hint" = none := by
      cases hd : o.details with
      | object fields => exact absurd hd (hobject fields)
      | _ => rfl
    rw [hnone]
    rfl

/-- Details that are an object are left as they are. -/
theorem detailsObject_eq (h : ∃ fields, o.details = .object fields) :
    o.detailsObject = o.details := by
  obtain ⟨fields, h⟩ := h
  rw [detailsObject, h]

/-- The size of a wheel that was written is a 64-bit number. -/
def IsMeasured (o : Outcome) : Prop :=
  o.status = .ok → ∃ n : Nat, n < Json.wordBound ∧ o.details.field? "bytes" = some (.integer n)

end Outcome

namespace Json

/-- A value that is no container, or an array of such values. -/
def IsPlain (v : Json) : Prop := v.isStandard = true ∧ v.height ≤ 1

theorem isPlain_string (text : String) : (Json.string text).IsPlain := ⟨rfl, Nat.zero_le 1⟩

theorem isPlain_integer {n : Nat} (h : n < wordBound) : (Json.integer n).IsPlain := by
  refine ⟨?_, Nat.zero_le 1⟩
  simp only [isStandard, isWord, Bool.and_eq_true, decide_eq_true_eq]
  omega

theorem isPlain_ofText? (text : Option String) : (ofText? text).IsPlain := by
  cases text with
  | none => exact ⟨rfl, Nat.zero_le 1⟩
  | some text => exact isPlain_string text

theorem isPlain_ofTexts (texts : List String) : (ofTexts texts).IsPlain := by
  have h : itemsStandard (texts.map .string) = true ∧ itemsHeight (texts.map .string) = 0 := by
    induction texts with
    | nil => exact ⟨rfl, rfl⟩
    | cons text texts ih =>
      rw [List.map_cons, itemsHeight, ih.2]
      exact ⟨ih.1, rfl⟩
  refine ⟨h.1, ?_⟩
  rw [ofTexts, height, h.2]

end Json

namespace Wrap

theorem bytes_successOutcome (settled : BuildRequest) (built : BuiltWheel) :
    (successOutcome settled built).details.field? "bytes" = some (.integer built.bytes) := by
  rw [successOutcome, Json.field?_ofFields]
  rfl

theorem isPlain_of_mem_errorFields {error : BuildError} {f : String × Json}
    (h : f ∈ errorFields error) : f.2.IsPlain := by
  have htext : ∃ text, f.2 = .string text := by
    cases error with
    | binaryNotFound binary cause =>
      simp only [errorFields, List.mem_cons, List.not_mem_nil, or_false] at h
      rcases h with rfl | rfl
      · exact ⟨_, rfl⟩
      · exact ⟨_, rfl⟩
    | _ =>
      simp only [errorFields, List.mem_singleton] at h
      exact ⟨_, by rw [h]⟩
  obtain ⟨text, ht⟩ := htext
  rw [ht]
  exact Json.isPlain_string text

/-- The details of a run are fields with plain values. -/
theorem Conclusion.exists_fields {o : Outcome} (h : Conclusion o) (hb : o.IsMeasured) :
    ∃ fields, o.details = .ofFields fields ∧ ∀ f ∈ fields, f.2.IsPlain := by
  cases h with
  | invalid =>
    refine ⟨_, rfl, ?_⟩
    simp only [List.forall_mem_singleton]
    exact Json.isPlain_string _
  | failed h =>
    refine ⟨_, rfl, ?_⟩
    simp only [List.cons_append, List.nil_append, List.forall_mem_cons]
    exact ⟨Json.isPlain_string _, Json.isPlain_string _, fun f => isPlain_of_mem_errorFields⟩
  | succeeded settled built =>
    obtain ⟨n, hn, hfield⟩ := hb rfl
    rw [bytes_successOutcome, Option.some.injEq, Json.integer.injEq] at hfield
    have hbytes : built.bytes < Json.wordBound := by omega
    refine ⟨_, rfl, ?_⟩
    simp only [List.forall_mem_cons]
    exact ⟨Json.isPlain_string _, Json.isPlain_integer hbytes, Json.isPlain_string _,
      Json.isPlain_string _, Json.isPlain_string _, Json.isPlain_string _, Json.isPlain_string _,
      Json.isPlain_ofText? _, Json.isPlain_ofTexts _, nofun⟩

end Wrap

/-! ## The envelope as it is read -/

/-- The output is the outcome in an envelope, and a reader finds it there. -/
structure Exit.Encloses (exit : Exit) (o : Outcome) : Prop where
  stderr : exit.stderr = ""
  /-- One document and a new line: it begins and ends with its own braces, has three fields, and
  its value is an object of the outcome. -/
  stdout : ∃ text fields, exit.stdout = text ++ "\n" ∧
    text.toList.head? = some '\x7b' ∧ text.toList.getLast? = some '\x7d' ∧
    Json.Document.read? text.toList = some (.object fields) ∧
    fields.map (·.1) = [some "details", some "message", some "status"] ∧
    Json.read? text = some (.object [("details", o.details),
      ("message", .string ("bin-to-wheel: " ++ o.message)), ("status", .string o.status.code)])
  details : ∃ fields, o.details = .object fields
  status : exit.code = 0 ∧ o.status.code = "ok" ∨ exit.code = 1 ∧ o.status.code = "user-error" ∨
    exit.code = 2 ∧ o.status.code = "error"

namespace Json

theorem getLast?_prettyFields (level : Nat) (fields : List (String × Json)) :
    (prettyFields level fields).getLast? = some '\x7d' := by
  induction fields with
  | nil => simp [prettyFields]
  | cons field fields ih => rw [prettyFields, List.getLast?_append, ih, Option.some_or]

end Json

/-- The response to a run has the outcome's own details, and its message behind the name. -/
theorem Wrap.Conclusion.response_eq {o : Outcome} (h : Conclusion o)
    (hd : ∃ fields, o.details = .object fields) :
    o.response = .object [("details", o.details),
      ("message", .string ("bin-to-wheel: " ++ o.message)), ("status", .string o.status.code)] := by
  have hmessage : statusMessage o.message = "bin-to-wheel: " ++ o.message := h.statusMessage_eq
  have h₁ : "message" < "status" := by decide
  have h₂ : "details" < "message" := by decide
  simp [Outcome.response, hmessage, Outcome.detailsObject_eq hd, Json.ofFields, Json.sortFields,
    Json.setField, h₁, h₂]

/-- The response to a run is what a reader can follow. -/
theorem Wrap.Conclusion.isStandard_response {o : Outcome} (h : Conclusion o) (hb : o.IsMeasured) :
    (∃ fields, o.details = .object fields) ∧ o.response.isStandard = true ∧
      o.response.height ≤ Json.deepest := by
  obtain ⟨fields, hfields, hplain⟩ := h.exists_fields hb
  have hobject := Outcome.detailsObject_eq ⟨_, hfields⟩
  have hstandard : o.details.isStandard = true := by
    rw [hfields]
    exact Json.isStandard_ofFields fun f hf => (hplain f hf).1
  have hheight : o.details.height ≤ 2 := by
    rw [hfields]
    exact Json.height_ofFields_le fun f hf => (hplain f hf).2
  refine ⟨⟨_, hfields⟩, ?_, ?_⟩
  · refine Json.isStandard_ofFields ?_
    simp only [List.forall_mem_cons, hobject]
    exact ⟨rfl, rfl, hstandard, nofun⟩
  · refine Nat.le_trans (Json.height_ofFields_le (k := 2) ?_) (by decide)
    simp only [List.forall_mem_cons, hobject]
    exact ⟨Nat.zero_le 2, Nat.zero_le 2, hheight, nofun⟩

/-- The outcome of a run is in the envelope that is shown. -/
theorem Wrap.Conclusion.encloses {o : Outcome} (h : Conclusion o) (hb : o.IsMeasured)
    {i : CommandLine.Invocation} (hi : i.json = true) (env : Environment)
    (terminals : Terminals) : (Program.present env terminals i o).Encloses o := by
  obtain ⟨hdetails, hstandard, hheight⟩ := h.isStandard_response hb
  have hread := Json.read?_pretty hstandard hheight
  have hdocument := Json.Document.read?_prettyText hstandard 0
  have htext : o.response.pretty.toList = Json.prettyText 0 o.response := String.toList_ofList
  have hresponse := h.response_eq hdetails
  rw [Program.present, if_pos hi]
  constructor
  case stderr => rfl
  case stdout =>
    refine ⟨o.response.pretty, Json.fieldDocuments [("details", o.details),
      ("message", .string ("bin-to-wheel: " ++ o.message)), ("status", .string o.status.code)],
      rfl, ?_, ?_, ?_, rfl, ?_⟩
    · rw [htext, hresponse]
      rfl
    · rw [htext, hresponse]
      rw [Json.prettyText, List.getLast?_append, Json.getLast?_prettyFields, Option.some_or]
    · rw [htext, hdocument, hresponse]
      rfl
    · rw [hread, hresponse]
  case details => exact hdetails
  case status =>
    unfold Outcome.exitCode
    cases o.status with
    | ok => exact .inl ⟨rfl, rfl⟩
    | userError => exact .inr (.inl ⟨rfl, rfl⟩)
    | failure => exact .inr (.inr ⟨rfl, rfl⟩)

/-! ## Runs with an envelope -/

section run

variable {args : List Bytes} {i : CommandLine.Invocation} {codec : Zip.Codec}

/-- On any machine, a run reports what there is to say about the environment, makes the wheel, and
shows the outcome. -/
theorem run_of_parse_ok {σ : Type} [Host (StateM σ)] {env : Environment} {s s₁ s' : σ}
    {o : Outcome} (terminals : Terminals) (hi : CommandLine.parse args = .ok i)
    (hw : (Program.reportAll (m := StateM σ) (Config.warnings env)).run s = ((), s₁))
    (ho : (wrap (m := StateM σ) (Config.ofEnvironment env) i.request codec).run s₁ = (o, s')) :
    (Program.run (m := StateM σ) env terminals args codec).run s =
      (Program.present env terminals i o, s') := by
  have hinvoke : (Program.invoke (m := StateM σ) env terminals i codec).run s =
      (Program.present env terminals i
          ((wrap (m := StateM σ) (Config.ofEnvironment env) i.request codec).run
            ((Program.reportAll (m := StateM σ) (Config.warnings env)).run s).2).1,
        ((wrap (m := StateM σ) (Config.ofEnvironment env) i.request codec).run
          ((Program.reportAll (m := StateM σ) (Config.warnings env)).run s).2).2) := rfl
  rw [hw, ho] at hinvoke
  simp only [Program.run, hi, Variables.capture?_toVariables]
  exact hinvoke

/-- On any machine, a run with a variable that is no text is broken off, and nothing is done. -/
theorem run_of_not_isText {σ : Type} [Host (StateM σ)] {vars : Variables}
    (hi : CommandLine.parse args = .ok i) (hv : ¬vars.IsText) (terminals : Terminals) (s : σ) :
    (Program.run (m := StateM σ) vars terminals args codec).run s = (Program.crash, s) := by
  simp only [Program.run, hi, Variables.capture?_eq_none_iff.2 hv]
  rfl

/-- On any machine, a run with `--json` shows its outcome in an envelope. -/
theorem encloses_run {σ : Type} [Host (StateM σ)] (env : Environment) (terminals : Terminals)
    (hi : CommandLine.parse args = .ok i) (hj : CommandLine.longOption "json" ∈ args)
    (codec : Zip.Codec) (s : σ) :
    ∃ s₁ o s', (Program.reportAll (m := StateM σ) (Config.warnings env)).run s = ((), s₁) ∧
      (wrap (m := StateM σ) (Config.ofEnvironment env) i.request codec).run s₁ = (o, s') ∧
      ∃ exit, (Program.run (m := StateM σ) env terminals args codec).run s = (exit, s') ∧
        (o.IsMeasured → exit.Encloses o) := by
  rcases hw : (Program.reportAll (m := StateM σ) (Config.warnings env)).run s with ⟨⟨⟩, s₁⟩
  rcases ho : (wrap (m := StateM σ) (Config.ofEnvironment env) i.request codec).run s₁ with ⟨o, s'⟩
  refine ⟨s₁, o, s', rfl, ho, _, run_of_parse_ok terminals hi hw ho, fun hb => ?_⟩
  have hc := concludes_wrap (Config.ofEnvironment env) i.request codec s₁
  rw [ho] at hc
  exact hc.encloses hb (CommandLine.json_of_parse_ok hi hj) env terminals

theorem run_reportAll (events : List Event) (w : World) :
    (Program.reportAll (m := Simulation) events).run w =
      ((), { w with journal := w.journal ++ events }) := by
  induction events generalizing w with
  | nil =>
    rw [List.append_nil]
    rfl
  | cons event events ih =>
    have hstep : (Program.reportAll (m := Simulation) (event :: events)).run w =
        (Program.reportAll (m := Simulation) events).run (w.report event) := rfl
    rw [hstep, ih, World.report]
    simp

/-- A wheel that was put on a disk has a size of 64 bits. -/
theorem isMeasured_of_run {config : Config} {request : WrapRequest} {w w' : World} {o : Outcome}
    (h : (wrap (m := Simulation) config request codec).run w = (o, w')) : o.IsMeasured := by
  intro ho
  obtain ⟨settled, payload, name, archive, mid, t, -, hr, hn, ha, hd, rfl⟩ :=
    Disk.exists_archive_of_wrap_ok (Disk.wrap_eq_of_run h) ho
  exact ⟨archive.length, (hd.packed hr hn ha).length_lt, Wrap.bytes_successOutcome _ _⟩

end run

namespace Escaped

/-- A line that asks for a platform with a quote, a new line and a control character in it. -/
def args : List Bytes :=
  ["-qv", "--json", "--name=x", "--version=1", "--binary=t", "--platform=a\"\n\x01"].map Utf8.encode

/-- An environment that there is something to say about. -/
def environment : Environment := ⟨[("SOURCE_DATE_EPOCH", "soon")]⟩

/-- A world without files. -/
def world : World := ⟨⟨"linux", "x86_64"⟩, ⟨⟨some (.directory 0o755), []⟩, []⟩, []⟩

end Escaped

namespace Foreign

/-- A line that asks for a wheel and for an envelope. -/
def args : List Bytes :=
  ["--name", "x", "--version", "1", "--binary", "t", "--platform", "win_amd64", "--output-dir",
    "out", "--json"].map Utf8.encode

/-- A variable that asks for plain output, with a value that is no text. -/
def vars : Variables := ⟨[(Utf8.encode "NO_COLOR", [0xFF])]⟩

theorem not_isText_vars : ¬vars.IsText := by
  intro h
  exact (h _ (List.mem_singleton_self _)).2 (by decide)

/-- A world with a program. -/
def world : World where
  machine := ⟨"linux", "x86_64"⟩
  disk := ⟨Crossing.folder [(Utf8.encode "t", ⟨some (.file 0o755 [0x78]), []⟩)], []⟩
  journal := []

end Foreign

end Wheelwright
