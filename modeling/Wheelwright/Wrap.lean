import Wheelwright.Build
import Wheelwright.Config
import Wheelwright.Outcome
import Wheelwright.Size
/-!
# Wrapping a program

A request may name the platform by an alias or leave it to the machine, leave the output directory
to the settings, and keep the long description in a file. `prepare` settles all that, `wrap` builds
the wheel and says how it went.
-/

namespace Wheelwright

/-- Where the platform tag comes from. -/
inductive PlatformChoice where
  | explicit (tag : String)
  /-- The machine that the wheel is built on. -/
  | detect
  deriving DecidableEq, Repr

/-- Where the long description comes from. -/
inductive LongDescription where
  | inline (text : String)
  | readme (file : Path)
  deriving DecidableEq, Repr

/-- What people ask for. -/
structure WrapRequest where
  name : String
  version : String
  binary : Path
  platform : PlatformChoice
  outputDir : Option Path
  entryPoint : Option String
  description : Option String
  author : Option String
  license : Option String
  url : Option String
  longDescription : Option LongDescription
  deriving DecidableEq, Repr

namespace Wrap

variable {m : Type → Type} [Monad m] [Host m]

/-- What there is to say about a text that stands for a tag. -/
def resolutionEvent (input : String) (tag : PlatformTag) : Event :=
  match Platform.aliases.lookup input with
  | some _ => .aliasResolved input tag.text
  | none => .tagPassedThrough input

/-- The tag that an alias or a canonical tag stands for. -/
def resolve (input : String) : ExceptT BuildError m PlatformTag := do
  match Platform.resolve input with
  | .ok tag =>
    Build.report (resolutionEvent input tag)
    return tag
  | .error e => throw (.platform e)

/-- The tag of a choice. -/
def resolveChoice : PlatformChoice → ExceptT BuildError m PlatformTag
  | .explicit input => resolve input
  | .detect => do
    let machine ← ExceptT.lift Host.machine
    match Platform.ofHost machine.os machine.arch with
    | .ok platform =>
      Build.report (.hostDetected machine.os machine.arch platform)
      resolve platform
    | .error e => throw (.platform e)

/-- The text of a long description's file. -/
def readText (file : Path) : ExceptT BuildError m String := do
  let content ← Build.attempt (Host.readFile file) (.readme file)
  match Utf8.decode? content with
  | some text => return text
  | none => throw (.readme file .contentNotUtf8)

/-- The text of a long description. -/
def readDescription : Option LongDescription → ExceptT BuildError m (Option String)
  | none => return none
  | some (.inline text) => return some text
  | some (.readme file) => some <$> readText file

/-- What is told when the output cannot be written. -/
def outputHint : String :=
  "check the output directory exists or can be created and is writable"

/-- What is told when the platform is not known. -/
def platformHint : String :=
  "use one of " ++ ", ".intercalate (Platform.aliases.map (·.1)) ++
    " or a canonical tag such as manylinux_2_17_aarch64"

/-- The details that only one kind of error has. -/
def errorFields : BuildError → List (String × Json)
  | .platform _ => [("hint", .string platformHint)]
  | .binaryNotFound binary _ =>
    [("binary", .string binary.display),
      ("hint", .string "check the --binary path points at a readable file")]
  | .readme file _ => [("readme", .string file.display)]
  | .io .. | .archive _ => [("hint", .string outputHint)]

/-- How a run ended that built nothing. -/
def errorOutcome (e : BuildError) : Outcome where
  status := if e.isUserError then .userError else .failure
  message := e.message
  details := .ofFields <|
    [("reason", .string e.reason), ("error", .string e.message)] ++ errorFields e

/-- How a run ended that built a wheel. -/
def successOutcome (request : BuildRequest) (built : BuiltWheel) : Outcome where
  status := .ok
  message := "wrote " ++ built.path.display ++ " (" ++ formatSize built.bytes ++ ", sha256=" ++
    shortDigest built.sha256 ++ "…)"
  details := .ofFields
    [("wheel", .string built.path.display), ("bytes", .integer built.bytes),
      ("sha256", .string built.sha256), ("name", .string request.name),
      ("normalized_name", .string request.module), ("version", .string request.version),
      ("platform_tag", .string built.platform.text), ("entry_point", .ofText? request.entryPoint),
      ("entries", .ofTexts built.entries)]

/-- How a run ended that was asked for a package without a name or a version. -/
def invalidRequest : Outcome where
  status := .userError
  message := "package name and version must not be empty"
  details := .ofFields [("reason", .string "invalid_request")]

/-- Whether a request lacks a name or a version. -/
def lacksName (request : WrapRequest) : Bool :=
  Text.isBlank request.name || Text.isBlank request.version

end Wrap

variable {m : Type → Type} [Monad m] [Host m]

/-- The request with everything settled. -/
def prepare (config : Config) (request : WrapRequest) : ExceptT BuildError m BuildRequest := do
  let platform ← Wrap.resolveChoice request.platform
  let outputDir := request.outputDir.getD config.outputDir
  let longDescription ← Wrap.readDescription request.longDescription
  Build.report (.requestPrepared request.name platform.text outputDir)
  return {
    name := request.name
    version := request.version
    binary := request.binary
    platform
    entryPoint := request.entryPoint
    description := request.description
    author := request.author
    license := request.license
    url := request.url
    longDescription
    outputDir }

/-- The wheel for a request with everything settled on the way. -/
def prepareAndBuild (config : Config) (request : WrapRequest) (codec : Zip.Codec) :
    ExceptT BuildError m (BuildRequest × BuiltWheel) := do
  let settled ← prepare config request
  let built ← build settled config.epoch codec
  return (settled, built)

/-- A run: the wheel for a request, packed with a codec, or why there is none. -/
def wrap (config : Config) (request : WrapRequest) (codec : Zip.Codec := Zip.stored) :
    m Outcome := do
  if Wrap.lacksName request then return Wrap.invalidRequest
  match ← (prepareAndBuild config request codec).run with
  | .ok (settled, built) => return Wrap.successOutcome settled built
  | .error e => return Wrap.errorOutcome e

end Wheelwright
