import Wheelwright.Disk.OsError
import Wheelwright.Disk.Path
import Wheelwright.Platform
/-!
# Why a wheel was not built

Every failure has a cause, a text, and a code that programs can act on. Some the caller can mend by
asking differently; the rest are the machine's.
-/

namespace Wheelwright

/-- Why a wheel was not built. -/
inductive BuildError where
  /-- There is no platform tag. -/
  | platform (error : PlatformError)
  /-- The program to wrap is missing or cannot be used. -/
  | binaryNotFound (binary : Path) (cause : Fault)
  /-- The long description's file cannot be read. -/
  | readme (file : Path) (cause : Fault)
  /-- Writing the wheel failed; the context says what was being done. -/
  | io (context : String) (cause : Fault)
  /-- Packing the archive failed. -/
  | archive (cause : Fault)
  deriving DecidableEq, Repr

namespace BuildError

/-- What is told to the user. -/
def message : BuildError → String
  | .platform e => e.message
  | .binaryNotFound binary _ => "binary not found or unreadable: " ++ binary.display
  | .readme file _ => "readme not readable: " ++ file.display
  | .io context cause => context ++ ": " ++ cause.message
  | .archive cause => "writing wheel archive: " ++ cause.message

/-- The code that programs can act on. -/
def reason : BuildError → String
  | .platform _ => "invalid_platform"
  | .binaryNotFound .. => "binary_not_found"
  | .readme .. => "readme_unreadable"
  | .io .. | .archive _ => "io_error"

/-- Whether the caller can mend it by asking differently. -/
def isUserError : BuildError → Bool
  | .io .. | .archive _ => false
  | _ => true

/-- What lies behind it, if it is not the whole story itself. -/
def cause? : BuildError → Option Fault
  | .platform _ => none
  | .binaryNotFound _ cause | .readme _ cause | .io _ cause | .archive cause => some cause

end BuildError
end Wheelwright
