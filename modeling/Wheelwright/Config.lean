import Wheelwright.Environment
import Wheelwright.Log
/-!
# Settings from the environment

Two variables set what a request may leave open: the directory for wheels, and the time that
archives are stamped with.
-/

namespace Wheelwright

/-- What the environment settles. -/
structure Config where
  outputDir : Path
  /-- Seconds since 1970 for the stamp of every archive member, if the environment sets them. -/
  epoch : Option Int
  deriving DecidableEq, Repr

namespace Config

/-- The directory for wheels when nothing else is said. -/
def defaultOutputDir : String := "dist"

/-- The settings of an environment. A blank directory and a time that cannot be read count as
unset. -/
def ofEnvironment (env : Environment) : Config where
  outputDir := .ofString <|
    match env.outputDir? with
    | some dir => if Text.isBlank dir then defaultOutputDir else dir
    | none => defaultOutputDir
  epoch :=
    match env.sourceDateEpoch? with
    | some raw => (Epoch.read raw).toOption
    | none => none

/-- What there is to say about settings that are not followed. -/
def warnings (env : Environment) : List Event :=
  match env.sourceDateEpoch? with
  | some raw =>
    match Epoch.read raw with
    | .ok _ => []
    | .error cause => [.epochIgnored raw cause]
  | none => []

end Config
end Wheelwright
