import Wheelwright.Proofs.Settings
import Wheelwright.Proofs.Wheel.Identity
import Wheelwright.Proofs.Wrap.Destination
/-!
# The console command

The command and the package's directory are written into the entry points as they are. What a reader
finds there begins with the section of the console scripts, and behind it comes one line more than
there are line ends in the two texts. It is the one script that was asked for exactly if nothing in
them looks like something else to that reader; the main statement is `exists_script`.
`exists_run_second_section` is a run whose command brings a section of its own.
-/

namespace Wheelwright

namespace SettingLine.Dialect

variable {d : Dialect} {command : String}

/-! ## What a command may hold -/

variable (d) in
/-- A command and a package's directory whose line a reader takes for what was meant. -/
structure KeepsScript (command module : String) : Prop where
  endsLine : ∀ c ∈ command.toList ++ module.toList, d.endsLine c = false
  equals : '=' ∉ command.toList
  command_tight : d.IsTight command.toList
  comment : ∀ c, command.toList.head? = some c → d.opensComment c = false
  module_head : ∀ c, module.toList.head? = some c → d.isBlank c = false

/-- The part after the package's directory is visible, and ends no line. -/
theorem endsLine_main : ∀ c ∈ ":main".toList, d.endsLine c = false ∧ d.isBlank c = false :=
  visible_of_all (by decide)

theorem countP_main : ":main".toList.countP d.endsLine = 0 := by
  apply List.countP_eq_zero.2
  intro c hc
  simp [(endsLine_main c hc).1]

/-- The script's line is found alone and as it is exactly if it is kept. -/
theorem found_script_iff (module : String) :
    d.found (setting command (module ++ ":main")).chars = [setting command (module ++ ":main")] ↔
      d.KeepsScript command module := by
  have hlast : (module ++ ":main").toList.getLast? = some 'n' := by
    rw [String.toList_append, List.getLast?_append]
    rfl
  have hhead : (module ++ ":main").toList.head? = some (module.toList.head?.getD ':') := by
    rw [String.toList_append, List.head?_append]
    cases module.toList.head? <;> rfl
  rw [found_setting_iff]
  constructor
  · rintro ⟨hends, hk⟩
    refine ⟨?_, hk.equals, hk.key_tight, hk.comment, ?_⟩
    · intro c hc
      apply hends
      rw [String.toList_append, ← List.append_assoc]
      exact List.mem_append_left _ hc
    · intro c hc
      apply hk.value_tight.head
      rw [hhead, hc]
      rfl
  · intro h
    refine ⟨?_, h.command_tight, ⟨?_, ?_⟩, h.equals, h.comment, ?_⟩
    · intro c hc
      rw [String.toList_append, ← List.append_assoc, List.mem_append] at hc
      exact hc.elim (h.endsLine c) fun hm => (endsLine_main c hm).1
    · intro c hc
      rw [hhead, Option.some.injEq] at hc
      cases hm : module.toList.head? with
      | none =>
        rw [← hc, hm]
        exact (endsLine_main _ (by decide)).2
      | some a =>
        rw [← hc, hm]
        exact h.module_head a hm
    · intro c hc
      rw [hlast, Option.some.injEq] at hc
      rw [← hc]
      exact (endsLine_main _ (by decide)).2
    · rintro ⟨-, hb⟩
      rw [hlast] at hb
      exact absurd hb (by decide)

/-- The section's line is found alone and as it is. -/
theorem found_console_scripts :
    d.found (header "console_scripts").chars = [header "console_scripts"] := by
  have hv : ∀ c ∈ (header "console_scripts").chars, d.endsLine c = false ∧ d.isBlank c = false :=
    visible_of_all (by decide)
  have ht : d.trim (header "console_scripts").chars = (header "console_scripts").chars :=
    trim_eq_self_iff.2 ⟨fun c hc => (hv c (List.mem_of_mem_head? hc)).2,
      fun c hc => (hv c (List.mem_of_mem_getLast? hc)).2⟩
  have hh : (header "console_scripts").chars.head? = some '[' := rfl
  rw [found_of_endsLine fun c hc => (hv c hc).1, Dialect.ofChars, ht, hh, Option.any_some,
    d.opensComment_bracket]
  simp [chars]

end SettingLine.Dialect

open SettingLine

/-- What a reader finds in the entry points of a layout with a command begins with the section of
the console scripts. Each line end in the command or in the package's directory makes a further line
of it; it is the one script that was asked for exactly if the reader keeps its line. -/
theorem exists_script (d : Dialect) (r : BuildRequest) (binaryName : String) (payload : Bytes)
    {command : String} (h : r.entryPoint = some command) :
    ∃ text found, (r.plan binaryName payload).text?
        ((r.plan binaryName payload).distInfo ++ "/entry_points.txt") = some text ∧
      d.read? text = some (header "console_scripts" :: found) ∧
      found.length = (command.toList ++ r.module.toList).countP d.endsLine + 1 ∧
      (found = [setting command (r.module ++ ":main")] ↔ d.KeepsScript command r.module) := by
  have hm : Member.ofText (r.distInfo ++ "/entry_points.txt") (entryPoints command r.module) ∈
      (r.plan binaryName payload).members := by
    simp [BuildRequest.plan, BuildRequest.listed, h]
  refine ⟨_, d.found (setting command (r.module ++ ":main")).chars, r.text?_plan _ _ hm, ?_, ?_,
    Dialect.found_script_iff r.module⟩
  · rw [entryPoints, Dialect.read?_render, List.flatMap_cons, Dialect.found_console_scripts,
      List.singleton_append, List.flatMap_singleton]
  · rw [Dialect.length_found, Dialect.countP_setting, String.toList_append, ← List.append_assoc,
      List.countP_append, Dialect.countP_main, Nat.add_zero]

/-! ## A second section -/

namespace Nested

/-- A request for a wheel of `b` with a console command. -/
def scripted (command : String) : WrapRequest := { request "b" with entryPoint := some command }

/-- The request with everything settled. -/
def scriptedSettled (command : String) : BuildRequest :=
  { settled "b" with entryPoint := some command }

/-- A command that ends its line and goes on with a section of its own. -/
def command : String := "a\n[gui_scripts]\nb"

end Nested

/-- The command `tool` is the one script. -/
theorem exists_script_tool : (Nested.scriptedSettled "tool").entryPoint = some "tool" ∧
    ∃ text found, ((Nested.scriptedSettled "tool").plan "t" [0x7F]).text?
        (((Nested.scriptedSettled "tool").plan "t" [0x7F]).distInfo ++ "/entry_points.txt") =
          some text ∧
      SettingLine.unicode.read? text = some (header "console_scripts" :: found) ∧
      found.length = ("tool".toList ++ (Nested.scriptedSettled "tool").module.toList).countP
        SettingLine.unicode.endsLine + 1 ∧
      (found = [setting "tool" ((Nested.scriptedSettled "tool").module ++ ":main")] ↔
        SettingLine.unicode.KeepsScript "tool" (Nested.scriptedSettled "tool").module) :=
  ⟨rfl, exists_script SettingLine.unicode (Nested.scriptedSettled "tool") "t" [0x7F] rfl⟩

/-- A run with a command that ends its line succeeds. To either reader the entry points of the wheel
have four lines: what begins the command is no script, and what ends it is one in a section of the
command's own. -/
theorem exists_run_second_section : ∃ o w' t,
    (wrap (m := Simulation) Nested.config (Nested.scripted Nested.command) Zip.stored).run
        Nested.world = (o, w') ∧
      o.status = .ok ∧
      Disk.Delivered (Nested.scriptedSettled Nested.command)
        (Zip.writeWith Zip.stored (Stamp.ofSetting Nested.config.epoch)
          ((Nested.scriptedSettled Nested.command).plan "t" [0x7F]).members)
        Nested.world.disk Nested.world.disk w'.disk t ∧
      ∃ text, ((Nested.scriptedSettled Nested.command).plan "t" [0x7F]).text?
          "b-1.dist-info/entry_points.txt" = some text ∧
        ∀ d ∈ [SettingLine.plain, SettingLine.unicode], d.read? text = some
          [header "console_scripts", other "a", header "gui_scripts", setting "b" "b:main"] := by
  have hl : Wrap.lacksName (Nested.scripted Nested.command) = false := by decide +kernel
  have hr : (Nested.scripted Nested.command).settled Nested.config Nested.world.machine
      Nested.world.disk = .ok (Nested.scriptedSettled Nested.command) := rfl
  have hx : (Nested.scriptedSettled Nested.command).extent "t" ≤ 10000000 := by decide +kernel
  have hz : (Nested.scriptedSettled Nested.command).wheelPath.bytes.contains 0 = false := by
    decide +kernel
  have ht : Nested.world.disk.slot (Nested.scriptedSettled Nested.command).wheelPath .busy =
      .ok [Utf8.encode "b-1-py3-none-win_amd64.whl", Utf8.encode "out"] := by
    decide +kernel
  have hd : Nested.world.disk.hasDirectory
      [Utf8.encode "b-1-py3-none-win_amd64.whl", Utf8.encode "out"] = false := by
    decide +kernel
  obtain ⟨o, w', hw, ho, hd⟩ := Nested.exists_run_of hl hr rfl rfl hx hz ht hd
  have htext : ((Nested.scriptedSettled Nested.command).plan "t" [0x7F]).text?
      "b-1.dist-info/entry_points.txt" = some (entryPoints Nested.command "b") := by
    decide +kernel
  refine ⟨o, w', _, hw, ho, hd, _, htext, ?_⟩
  decide +kernel

end Wheelwright
