import Wheelwright.Environment
import Wheelwright.Proofs.Text.Utf8
/-!
# Environments that are captured

Variables are captured exactly if all of them are text, names and values (`Variables.IsText`). What
is captured then stands for these variables and for no others, so that nothing is lost
(`Variables.capture?_eq_some_iff`); and every environment is captured from the variables that it
stands for.
-/

namespace Wheelwright
namespace Variables

/-- All the variables are text, in their names and in their values. -/
def IsText (vars : Variables) : Prop :=
  ∀ entry ∈ vars.entries, Utf8.decode? entry.1 ≠ none ∧ Utf8.decode? entry.2 ≠ none

theorem text?_eq_some_iff {entry : Bytes × Bytes} {setting : String × String} :
    text? entry = some setting ↔
      entry = (Utf8.encode setting.1, Utf8.encode setting.2) := by
  obtain ⟨name, value⟩ := entry
  obtain ⟨n, v⟩ := setting
  simp only [text?, Option.bind_eq_bind, Option.bind_eq_some_iff, Option.pure_def,
    Option.some.injEq, Prod.mk.injEq, Utf8.decode?_eq_some_iff]
  constructor
  · rintro ⟨_, rfl, _, rfl, rfl, rfl⟩
    exact ⟨rfl, rfl⟩
  · rintro ⟨rfl, rfl⟩
    exact ⟨n, rfl, v, rfl, rfl, rfl⟩

/-- An environment is captured from the variables that it stands for, and from no others. -/
theorem capture?_eq_some_iff {vars : Variables} {env : Environment} :
    vars.capture? = some env ↔ vars = env.toVariables := by
  obtain ⟨entries⟩ := vars
  obtain ⟨settings⟩ := env
  have hread : ∀ read : List (String × String), entries.mapM text? = some read ↔
      entries = read.map fun setting => (Utf8.encode setting.1, Utf8.encode setting.2) :=
    fun read => Utf8.mapM_eq_some_iff fun _ _ => text?_eq_some_iff
  simp only [capture?, Environment.toVariables, Option.bind_eq_bind, Option.bind_eq_some_iff,
    Option.pure_def, Option.some.injEq, Environment.mk.injEq, Variables.mk.injEq, hread]
  constructor
  · rintro ⟨read, rfl, rfl⟩
    rw [List.reverse_reverse]
  · rintro rfl
    exact ⟨settings.reverse, rfl, settings.reverse_reverse⟩

theorem capture?_toVariables (env : Environment) : env.toVariables.capture? = some env :=
  capture?_eq_some_iff.2 rfl

theorem exists_mapM_text? {entries : List (Bytes × Bytes)}
    (h : ∀ entry ∈ entries, Utf8.decode? entry.1 ≠ none ∧ Utf8.decode? entry.2 ≠ none) :
    ∃ settings, entries.mapM text? = some settings := by
  induction entries with
  | nil => exact ⟨[], rfl⟩
  | cons entry entries ih =>
    obtain ⟨⟨hn, hv⟩, he⟩ := List.forall_mem_cons.1 h
    obtain ⟨name, hname⟩ := Option.ne_none_iff_exists'.1 hn
    obtain ⟨value, hvalue⟩ := Option.ne_none_iff_exists'.1 hv
    obtain ⟨settings, hs⟩ := ih he
    exact ⟨(name, value) :: settings, by simp [List.mapM_cons, text?, hname, hvalue, hs]⟩

/-- Variables that are text throughout are captured. -/
theorem isText_iff {vars : Variables} : vars.IsText ↔ ∃ env, vars.capture? = some env := by
  constructor
  · intro h
    obtain ⟨settings, hs⟩ := exists_mapM_text? h
    exact ⟨⟨settings.reverse⟩, by simp [capture?, hs]⟩
  · rintro ⟨env, he⟩ entry hm
    rw [capture?_eq_some_iff.1 he] at hm
    obtain ⟨setting, -, rfl⟩ := List.mem_map.1 hm
    simp only [Utf8.decode?_encode]
    exact ⟨nofun, nofun⟩

/-- One variable that is no text, and nothing is captured. -/
theorem capture?_eq_none_iff {vars : Variables} : vars.capture? = none ↔ ¬vars.IsText := by
  rw [isText_iff, Option.eq_none_iff_forall_ne_some, not_exists]

end Variables
end Wheelwright
