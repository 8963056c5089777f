import Wheelwright.CommandLine
import Wheelwright.CommandLine.Help
import Wheelwright.Simulation
import Wheelwright.Style
/-!
# The program

From arguments and environment to output and exit code. With `--json` the outcome goes to standard
output as an envelope; without it, a success goes there as one line unless `-q` was given, and an
error goes to standard error with its hint, always. A run that is given a variable that is no text
is broken off before anything is done.
-/

namespace Wheelwright

/-- What the program writes and ends with, the log apart. -/
structure Exit where
  code : Nat
  stdout : String
  stderr : String
  deriving DecidableEq, Repr

/-- Whether the two outputs are terminals. -/
structure Terminals where
  stdout : Bool
  stderr : Bool
  deriving DecidableEq, Repr

namespace Program

open CommandLine

/-! ## Output -/

/-- The outcome as the program shows it. -/
def present (env : Environment) (terminals : Terminals) (i : Invocation) (o : Outcome) : Exit :=
  if i.json then ⟨o.exitCode, o.response.pretty ++ "\n", ""⟩
  else
    let message := statusMessage o.message
    let style := Style.choose i.noColor env.asksForNoColor
    if o.status = .ok then
      let line := (style terminals.stdout).statusLine o.status message
      ⟨o.exitCode, if i.quiet then "" else line ++ "\n", ""⟩
    else
      let style := style terminals.stderr
      ⟨o.exitCode, "", style.statusLine o.status message ++ "\n" ++
        match o.hint? with
        | some hint => style.hintLine hint ++ "\n"
        | none => ""⟩

/-- What is told about a command line that is refused. -/
def usageText : UsageError → String
  | .displayHelp => ""
  | .missingRequiredArgument => "a required option is missing"
  | .argumentConflict => "an option is given twice, or with another that excludes it"
  | .invalidValue => "an option lacks its value"
  | .unknownArgument => "an argument is not known"
  | .tooManyValues => "a switch takes no value"
  | .invalidUtf8 => "a value is not valid UTF-8"

/-- The end of a run whose command line is not followed. -/
def refuse : UsageError → Exit
  | .displayHelp => ⟨0, helpText, ""⟩
  | e => ⟨2, "", "error: " ++ usageText e ++ "\n\nFor more information, try '--help'.\n"⟩

/-- The end of a run that is given a variable that is no text: it is broken off. The lines of the
report that name places in libraries are left out. -/
def crash : Exit where
  code := 101
  stdout := ""
  stderr := "The application panicked (crashed).\n"

/-! ## Runs -/

variable {m : Type → Type} [Monad m] [Host m]

/-- Report events in order. -/
def reportAll : List Event → m Unit
  | [] => return ()
  | e :: es => do
    Host.log e
    reportAll es

/-- The run that a command line asks for. -/
def invoke (env : Environment) (terminals : Terminals) (i : Invocation) (codec : Zip.Codec) :
    m Exit := do
  reportAll (Config.warnings env)
  let outcome ← wrap (Config.ofEnvironment env) i.request codec
  return present env terminals i outcome

/-- A whole run. The variables are taken once the command line is understood, and before anything is
done. -/
def run (vars : Variables) (terminals : Terminals) (args : List Bytes) (codec : Zip.Codec) :
    m Exit :=
  match parse args with
  | .error e => return refuse e
  | .ok i =>
    match vars.capture? with
    | some env => invoke env terminals i codec
    | none => return crash

/-! ## Simulated runs -/

/-- The log lines of a run: the events that are shown at its level. -/
def logLines (threshold : Level) (events : List Event) : List String :=
  (events.filter (·.isShownAt threshold)).map Event.render

/-- The level of a command line's log; one that is refused has nothing to log. -/
def threshold (args : List Bytes) : Level :=
  match parse args with
  | .ok i => i.threshold
  | .error _ => .warn

/-- What a run on a simulated machine leaves: exit code and output, log, and the machine. -/
structure Trace where
  exit : Exit
  log : List String
  world : World
  deriving Repr

/-- A whole run on a simulated machine, with outputs that are no terminals. -/
def simulate (vars : Variables) (args : List Bytes) (machine : Machine) (disk : Disk)
    (codec : Zip.Codec := Zip.stored) : Trace :=
  let (exit, world) := (run (m := Simulation) vars ⟨false, false⟩ args codec) ⟨machine, disk, []⟩
  ⟨exit, logLines (threshold args) world.journal, world⟩

end Program
end Wheelwright
