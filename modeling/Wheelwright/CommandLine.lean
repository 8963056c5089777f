import Wheelwright.CommandLine.Scan
import Wheelwright.Wrap
/-!
# The command line

The items of the arguments are put together into a request. Every option and switch may be given
once; the platform is either named or left to the machine, and the long description is either given
or in a file.
-/

namespace Wheelwright.CommandLine

/-- What a command line asks for. -/
structure Invocation where
  request : WrapRequest
  quiet : Bool
  verbosity : Nat
  trace : Bool
  json : Bool
  noColor : Bool
  deriving DecidableEq, Repr

/-! ## Putting items together -/

/-- The value of an option. -/
inductive Value where
  | text (s : String)
  | path (p : Path)
  deriving DecidableEq, Repr

/-- The value that some bytes are for an option: a path has a byte, a text is text. -/
def Value.ofBytes (k : Key) (given : Bytes) : Except UsageError Value :=
  if k.takesPath then
    if given = [] then .error .invalidValue else .ok (.path ⟨given⟩)
  else match Utf8.decode? given with
    | some s => .ok (.text s)
    | none => .error .invalidUtf8

/-- What the items said so far. -/
structure Draft where
  values : List (Key × Value)
  switches : List Switch
  verbosity : Nat
  deriving DecidableEq, Repr

namespace Draft

/-- Nothing was said. -/
def empty : Draft := ⟨[], [], 0⟩

/-- Whether an option was given. -/
def has (d : Draft) (k : Key) : Bool := (d.values.lookup k).isSome

/-- The text given for an option. -/
def text? (d : Draft) (k : Key) : Option String :=
  match d.values.lookup k with
  | some (.text s) => some s
  | _ => none

/-- The path given for an option. -/
def path? (d : Draft) (k : Key) : Option Path :=
  match d.values.lookup k with
  | some (.path p) => some p
  | _ => none

/-- The draft with one more item. -/
def add (d : Draft) : Item → Except UsageError Draft
  | .value k given =>
    if d.has k then .error .argumentConflict
    else (Value.ofBytes k given).map fun v => { d with values := (k, v) :: d.values }
  | .switch s =>
    if d.switches.contains s then .error .argumentConflict
    else .ok { d with switches := s :: d.switches }
  | .verbose => .ok { d with verbosity := d.verbosity + 1 }
  | .help => .error .displayHelp

/-- The draft with more items. -/
def addAll : Draft → List Item → Except UsageError Draft
  | d, [] => .ok d
  | d, item :: items =>
    match d.add item with
    | .ok d' => d'.addAll items
    | .error e => .error e

/-- Whether two things were said that exclude each other. -/
def conflicts (d : Draft) : Bool :=
  d.has .platform && d.switches.contains .autoPlatform || d.has .longDescription && d.has .readme

/-- Where the platform tag is to come from, if anything was said. -/
def platform? (d : Draft) : Option PlatformChoice :=
  match d.text? .platform with
  | some tag => some (.explicit tag)
  | none => if d.switches.contains .autoPlatform then some .detect else none

/-- Where the long description is to come from. -/
def longDescription? (d : Draft) : Option LongDescription :=
  match d.text? .longDescription with
  | some text => some (.inline text)
  | none => (d.path? .readme).map .readme

/-- The most that `-v` counts. -/
def highestVerbosity : Nat := 255

/-- What the draft asks for, with what nobody may leave out. -/
def invocation (d : Draft) (name version : String) (binary : Path) (platform : PlatformChoice) :
    Invocation where
  request := {
    name
    version
    binary
    platform
    outputDir := d.path? .outputDir
    entryPoint := d.text? .entryPoint
    description := d.text? .description
    author := d.text? .author
    license := d.text? .license
    url := d.text? .url
    longDescription := d.longDescription? }
  quiet := d.switches.contains .quiet
  verbosity := min d.verbosity highestVerbosity
  trace := d.switches.contains .trace
  json := d.switches.contains .json
  noColor := d.switches.contains .noColor

/-- What the draft asks for; contradictions come before omissions. -/
def finish (d : Draft) : Except UsageError Invocation :=
  if d.conflicts then .error .argumentConflict
  else match d.text? .name, d.text? .version, d.path? .binary, d.platform? with
    | some name, some version, some binary, some platform =>
      .ok (d.invocation name version binary platform)
    | _, _, _, _ => .error .missingRequiredArgument

end Draft

/-- What some arguments ask for; of two errors the first on the line counts. -/
def parse (args : List Bytes) : Except UsageError Invocation :=
  let reading := scan args
  match Draft.empty.addAll reading.items with
  | .error e => .error e
  | .ok d =>
    match reading.error with
    | some e => .error e
    | none => d.finish

/-- The level from which on events are shown. -/
def Invocation.threshold (i : Invocation) : Level :=
  if i.trace then .trace
  else match i.verbosity with
    | 0 => .warn
    | 1 => .info
    | 2 => .debug
    | _ => .trace

end Wheelwright.CommandLine
