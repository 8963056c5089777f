import Wheelwright.Archive.Zip
import Wheelwright.Build.Error
import Wheelwright.Host
import Wheelwright.Wheel.Plan
/-!
# Building a wheel

The program is read, the wheel is laid out and packed, the output directory is made, and the archive
is staged in that directory and renamed into place. Nothing is written before everything is read,
and a staged file that cannot be renamed is taken away again.
-/

namespace Wheelwright

/-- What is known of a wheel that was written. -/
structure BuiltWheel where
  path : Path
  bytes : Nat
  sha256 : String
  platform : PlatformTag
  entries : List String
  deriving DecidableEq, Repr

namespace Build

variable {m : Type → Type} [Monad m] [Host m]

/-- An action that may fail, with the build error that its failure means. -/
def attempt {α : Type} (action : m (Except Fault α)) (error : Fault → BuildError) :
    ExceptT BuildError m α := do
  match ← action with
  | .ok a => return a
  | .error cause => throw (error cause)

/-- Report an event. -/
def report (e : Event) : ExceptT BuildError m Unit := ExceptT.lift (Host.log e)

/-- Report events in order. -/
def reportAll : List Event → ExceptT BuildError m Unit
  | [] => return ()
  | e :: es => do
    report e
    reportAll es

/-! ## Reading the program -/

/-- The bytes of the program to wrap. -/
def readBinary (binary : Path) : ExceptT BuildError m Bytes := do
  if ← ExceptT.lift (Host.isRegularFile binary) then
    let payload ← attempt (Host.readFile binary) (.binaryNotFound binary)
    report (.binaryRead binary payload.length)
    return payload
  else throw (.binaryNotFound binary .notRegularFile)

/-- The name that the program is stored under: its own, if that is text. -/
def binaryName (binary : Path) : Except BuildError String :=
  match binary.fileName? with
  | none => .error (.binaryNotFound binary .noFileName)
  | some name =>
    match Utf8.decode? name with
    | none => .error (.binaryNotFound binary .fileNameNotUtf8)
    | some text => .ok text

/-! ## Packing -/

/-- What there is to say about the stamp. -/
def stampEvents (epoch : Option Int) : List Event :=
  match epoch with
  | some e => if (Stamp.ofEpoch? e).isSome then [] else [.epochClamped e]
  | none => []

/-- Members stored one after another. A content that is too large is noticed while it is stored, a
packed content when its member is done. -/
def storeAll (codec : Zip.Codec) : List Member → ExceptT BuildError m Unit
  | [] => return ()
  | member :: members => do
    if Zip.largestMember < member.content.length then
      throw (.io ("writing " ++ member.path) .memberTooLarge)
    report (.entryStored member.path)
    if Zip.largestMember < (codec.pack member.content).length then
      throw (.archive .memberTooLarge)
    storeAll codec members

/-- The archive of a layout, packed with a codec. -/
def packWith (codec : Zip.Codec) (plan : Plan) (epoch : Option Int) :
    ExceptT BuildError m Bytes := do
  reportAll (stampEvents epoch)
  storeAll codec plan.members
  return Zip.writeWith codec (Stamp.ofSetting epoch) plan.members

/-! ## Writing -/

/-- What is said when there is no directory to begin with. -/
def noRoot : Fault := .other "failed to create whole tree"

/-- A directory, and those above it as far as they are missing, at most as many as `fuel`. What is
above is looked for only when it is missed. -/
def makeUpward : Nat → Path → m (Except Fault Unit)
  | 0, _ => return .error noRoot
  | fuel + 1, p => do
    if p.isEmpty then return .ok ()
    match ← Host.makeDirectory p with
    | .ok () => return .ok ()
    | .error (.os .noEntry) =>
      match p.parent? with
      | none => return .error noRoot
      | some above =>
        match ← makeUpward fuel above with
        | .error cause => return .error cause
        | .ok () =>
          match ← Host.makeDirectory p with
          | .ok () => return .ok ()
          | .error cause => if ← Host.isDirectory p then return .ok () else return .error cause
    | .error cause => if ← Host.isDirectory p then return .ok () else return .error cause

/-- A directory with all the directories above it. Each is named by fewer bytes than the one that it
holds, so there are no more of them than bytes in the path. -/
def makeDirectories (p : Path) : m (Except Fault Unit) := makeUpward (p.bytes.length + 1) p

/-- Once there is room for every directory above, more room changes nothing. -/
theorem makeUpward_eq_makeUpward {k n : Nat} {p : Path} (hk : p.bytes.length < k)
    (hn : p.bytes.length < n) : (makeUpward k p : m (Except Fault Unit)) = makeUpward n p := by
  induction k generalizing n p with
  | zero => omega
  | succ k ih =>
    obtain ⟨n, rfl⟩ : ∃ i, n = i + 1 := ⟨n - 1, by omega⟩
    cases h : p.parent? with
    | none => simp only [makeUpward, h]
    | some above =>
      have hl := (Path.parent?_eq_some h).2
      have hu : (makeUpward k above : m (Except Fault Unit)) = makeUpward n above :=
        ih (by omega) (by omega)
      simp only [makeUpward, h, hu]

/-- The mode of a wheel. -/
def wheelMode : Nat := 0o644

/-- A staged file filled and moved to its place. -/
def finish (staged : Host.Staged m) (path : Path) (content : Bytes) : m (Except Fault Unit) := do
  match ← Host.fill staged content with
  | .error cause => return .error cause
  | .ok () =>
    match ← Host.setMode staged wheelMode with
    | .error cause => return .error cause
    | .ok () => Host.publish staged path

/-- The content in a file at `path`, by way of a staged file in `dir`. -/
def persist (dir path : Path) (content : Bytes) : ExceptT BuildError m Unit := do
  let staged ← attempt (Host.stage dir) (.io ("staging wheel in " ++ dir.display))
  match ← ExceptT.lift (finish staged path content) with
  | .ok () => return ()
  | .error cause =>
    ExceptT.lift (Host.discard staged)
    throw (.io ("writing " ++ path.display) cause)

end Build

variable {m : Type → Type} [Monad m] [Host m]

/-- The wheel that a request asks for, with an optional time for its stamps, packed with a codec. -/
def build (request : BuildRequest) (epoch : Option Int) (codec : Zip.Codec := Zip.stored) :
    ExceptT BuildError m BuiltWheel := do
  let payload ← Build.readBinary request.binary
  let name ← Build.binaryName request.binary
  let plan := request.plan name payload
  Build.reportAll (plan.members.map fun member => .entryPlanned member.path member.content.length)
  let archive ← Build.packWith codec plan epoch
  Build.attempt (Build.makeDirectories request.outputDir)
    (.io ("creating output directory " ++ request.outputDir.display))
  let path := request.outputDir.join (.ofString plan.filename)
  Build.persist request.outputDir path archive
  Build.report (.wheelWritten path archive.length plan.entries.length)
  return {
    path
    bytes := archive.length
    sha256 := hexDigest archive
    platform := request.platform
    entries := plan.entries }

end Wheelwright
