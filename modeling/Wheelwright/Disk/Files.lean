import Wheelwright.Disk.Resolve
/-!
# Files on a disk

The operations with which a wheel is read and written: is there a file, what does it hold, make a
directory, and replace a file in one go by staging its new content under a fresh name in the same
directory, and renaming. The superuser is at work, so nothing is forbidden.
-/

namespace Wheelwright.Disk

/-! ## Reading -/

/-- Whether a path leads to a regular file. -/
def isRegularFile (d : Disk) (p : Path) : Bool :=
  match d.find? p with
  | .ok (.file _ _) => true
  | _ => false

/-- Whether a path leads to a directory. -/
def isDirectory (d : Disk) (p : Path) : Bool :=
  match d.find? p with
  | .ok n => n.isDirectory
  | .error _ => false

/-- The content of the file that a path leads to. -/
def read (d : Disk) (p : Path) : Except Fault Bytes :=
  match d.find? p with
  | .error e => .error e
  | .ok (.file _ content) => .ok content
  | .ok (.directory _) => .error (.os .isDirectory)
  | .ok (.link _) => .error (.os .tooManyLinks)
  | .ok .nullDevice => .ok []

/-! ## Directories -/

/-- The mode of new directories. -/
def directoryMode : Nat := 0o755

/-- A new directory in one that is there. -/
def makeDirectory (d : Disk) (p : Path) : Except Fault Disk :=
  match d.slot p .fileExists with
  | .error e => .error e
  | .ok l =>
    match d.node? l with
    | some _ => .error (.os .fileExists)
    | none => .ok (d.put l (.directory directoryMode))

/-! ## Staging -/

/-- The mode of a staged file before it is published. -/
def stagedMode : Nat := 0o600

/-- The names for staged files, all different and all of one length up to the millionth. -/
def stagingName (k : Nat) : Name :=
  let digits := (Nat.toDigits 10 k).map fun c => c.toNat.toUInt8
  Utf8.encode ".tmp" ++ List.replicate (6 - digits.length) 0x30 ++ digits

/-- The first staging name that is free in a directory. -/
def freeName? (d : Disk) (here : Location) : Option Name :=
  ((List.range ((d.place here).children.length + 1)).map stagingName).find? fun name =>
    (d.node? (name :: here)).isNone

/-- The path of a location from the root. -/
def pathTo (l : Location) : Path := ⟨Path.slash :: Split.glue Path.slash l.reverse⟩

/-- The path by which files are staged in a directory: from the root, with a name behind it. -/
def stagingPath (d : Disk) (dir : Path) : Path :=
  ((pathTo d.workingDirectory).join dir).join ⟨stagingName 0⟩

/-- An empty file under a fresh name in a directory, and where it is. -/
def stage (d : Disk) (dir : Path) : Except Fault (Location × Disk) :=
  if dir.bytes.contains 0 then .error .nulInPath
  else if longestPath < (d.stagingPath dir).bytes.length then .error (.os .nameTooLong)
  else match d.holder dir (dir.names ++ [stagingName 0]) with
    | .error e => .error e
    | .ok here =>
      match d.freeName? here with
      | none => .error (.os .fileExists)
      | some name => .ok (name :: here, d.put (name :: here) (.file stagedMode []))

/-- The staged file with content. -/
def fill (d : Disk) (staged : Location) (content : Bytes) : Disk :=
  match d.node? staged with
  | some (.file mode _) => d.put staged (.file mode content)
  | _ => d

/-- The staged file with another mode. -/
def setMode (d : Disk) (staged : Location) (mode : Nat) : Disk :=
  match d.node? staged with
  | some (.file _ content) => d.put staged (.file mode content)
  | _ => d

/-- The staged file moved to where a path points, in place of a file or link that is there. -/
def publish (d : Disk) (staged : Location) (p : Path) : Except Fault Disk :=
  if p.bytes.contains 0 then .error (.os .invalidArgument)
  else match d.slot p .busy with
    | .error e => .error e
    | .ok l =>
      match d.node? staged with
      | none => .error (.os .noEntry)
      | some n =>
        if p.bytes.getLast? == some Path.slash then .error (.os .notDirectory)
        else if d.hasDirectory l then .error (.os .isDirectory)
        else .ok ((d.drop staged).put l n)

end Wheelwright.Disk
