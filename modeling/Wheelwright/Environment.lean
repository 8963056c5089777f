import Wheelwright.Text.Utf8
/-!
# The environment

The system hands a process its variables as bytes, and these need not be text. A run takes all of
them as text before it looks at any, so that one variable that is no text is enough to leave it
without an environment, even one that nothing asks for (`Variables.capture?`).
-/

namespace Wheelwright

/-- The variables of a process as the system has them, in order: the names and values of each. -/
structure Variables where
  entries : List (Bytes × Bytes)
  deriving DecidableEq, Repr

/-- The variables of a process as text. -/
structure Environment where
  settings : List (String × String)
  deriving DecidableEq, Repr

namespace Variables

/-- A variable as text. -/
def text? (entry : Bytes × Bytes) : Option (String × String) := do
  let name ← Utf8.decode? entry.1
  let value ← Utf8.decode? entry.2
  return (name, value)

/-- The variables as text, if all of them are text. Of two with one name the last counts, so the
last comes first. -/
def capture? (vars : Variables) : Option Environment := do
  let settings ← vars.entries.mapM text?
  return ⟨settings.reverse⟩

end Variables

namespace Environment

/-- The value of a variable. -/
def get? (env : Environment) (name : String) : Option String := env.settings.lookup name

/-- The directory for wheels, as it is set. -/
def outputDir? (env : Environment) : Option String := env.get? "BIN_TO_WHEEL_OUT_DIR"

/-- The time for archives, as it is set. -/
def sourceDateEpoch? (env : Environment) : Option String := env.get? "SOURCE_DATE_EPOCH"

/-- Whether output is to be plain; an empty value asks for it too. -/
def asksForNoColor (env : Environment) : Bool := (env.get? "NO_COLOR").isSome

/-- The variables that are captured as an environment. -/
def toVariables (env : Environment) : Variables where
  entries := env.settings.reverse.map fun setting =>
    (Utf8.encode setting.1, Utf8.encode setting.2)

/-- An environment stands for its variables. -/
instance : Coe Environment Variables := ⟨toVariables⟩

end Environment
end Wheelwright
