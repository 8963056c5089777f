import Wheelwright.Disk.Path
import Wheelwright.Launcher
import Wheelwright.Metadata
import Wheelwright.PackageName
import Wheelwright.Record
import Wheelwright.Wheel.Filename
/-!
# The layout of a wheel

From a request and the program's name and bytes: which members a wheel has, in which order, and what
the wheel is called. Nothing here touches a disk.
-/

namespace Wheelwright

/-- What is needed to build a wheel once everything that people may leave open is settled. -/
structure BuildRequest where
  name : String
  version : String
  binary : Path
  platform : PlatformTag
  entryPoint : Option String
  description : Option String
  author : Option String
  license : Option String
  url : Option String
  longDescription : Option String
  outputDir : Path
  deriving DecidableEq, Repr

namespace BuildRequest

/-- The name as it appears in paths. -/
def module (r : BuildRequest) : String := normalize r.name

/-- The directory of the descriptors. -/
def distInfo (r : BuildRequest) : String := Wheelwright.distInfo r.module r.version

/-- What the wheel is called. -/
def filename (r : BuildRequest) : String := wheelFilename r.module r.version r.platform

/-- What the core metadata say. -/
def metadata (r : BuildRequest) : CoreMetadata where
  name := r.name
  version := r.version
  summary := r.description
  homePage := r.url
  author := r.author
  license := r.license
  longDescription := r.longDescription

end BuildRequest

/-- A wheel before it is written: its members in order, the manifest last. -/
structure Plan where
  filename : String
  distInfo : String
  binaryPath : String
  members : List Member
  deriving DecidableEq, Repr

/-- Where the manifest is stored. -/
def Plan.recordPath (p : Plan) : String := p.distInfo ++ "/RECORD"

/-- The members' paths in order. -/
def Plan.entries (p : Plan) : List String := p.members.map (·.path)

/-- A member with text for content. -/
def Member.ofText (path text : String) : Member := ⟨path, Utf8.encode text⟩

/-- Every member but the manifest. -/
def BuildRequest.listed (r : BuildRequest) (binaryName : String) (payload : Bytes) : List Member :=
  [.ofText (r.module ++ "/__init__.py") (Launcher.initModule r.version binaryName),
    .ofText (r.module ++ "/__main__.py") Launcher.mainModule,
    ⟨r.module ++ "/bin/" ++ binaryName, payload⟩,
    .ofText (r.distInfo ++ "/METADATA") r.metadata.render,
    .ofText (r.distInfo ++ "/WHEEL") (wheelDescriptor r.platform)] ++
  match r.entryPoint with
  | some command => [.ofText (r.distInfo ++ "/entry_points.txt") (entryPoints command r.module)]
  | none => []

/-- The layout for a program with the given name and bytes. -/
def BuildRequest.plan (r : BuildRequest) (binaryName : String) (payload : Bytes) : Plan :=
  let recordPath := r.distInfo ++ "/RECORD"
  let listed := r.listed binaryName payload
  { filename := r.filename
    distInfo := r.distInfo
    binaryPath := r.module ++ "/bin/" ++ binaryName
    members := listed ++ [.ofText recordPath (renderRecord listed recordPath)] }

end Wheelwright
