import Wheelwright.Disk.Basic
/-!
# Where a path leads

A path is walked name by name from the root or from the working directory. Every name is looked up
in a directory; a symbolic link on the way is replaced by its target, as often as the system allows.
`locate` walks the whole path, `slot` stops before the last name and says where it would stand.
-/

namespace Wheelwright.Disk

/-- The most bytes in a name. -/
def longestName : Nat := 255

/-- The most bytes in a path. -/
def longestPath : Nat := 4095

/-- The most links on the way of one path. -/
def mostLinks : Nat := 40

/-- Where the walk along a path begins, seen from a directory. -/
def startFrom (here : Way) (p : Path) : Way := if p.isAbsolute then [] else here

/-- Where one name leads from a directory, if something is there. -/
def next (d : Disk) (here : Way) (name : Name) : Except OsError Way :=
  if name = Path.dot then .ok here
  else if name = Path.dotDot then .ok here.tail
  else if longestName < name.length then .error .nameTooLong
  else .ok (d.onward here name)

/-- Names looked up one after another; at a link, `follow` goes on with the names of the target and
the names left over, from where the target begins. -/
def walkWith (d : Disk) (follow : Way → List Name → Except OsError Location)
    (here : Way) (names : List Name) : Except OsError Location :=
  match (d.ending here).node with
  | none => .error .noEntry
  | some (.link target) => follow (startFrom here.tail target) (target.steps ++ names)
  | some n =>
    match names with
    | [] => .ok here.location
    | name :: rest =>
      if !n.isDirectory then .error .notDirectory
      else match d.next here name with
        | .error e => .error e
        | .ok there => walkWith d follow there rest

/-- Names looked up one after another, through at most so many links. -/
def walk (d : Disk) : Nat → Way → List Name → Except OsError Location
  | 0 => d.walkWith fun _ _ => .error .tooManyLinks
  | links + 1 => d.walkWith (d.walk links)

/-- Where the walk along a path begins. -/
def start (d : Disk) (p : Path) : Way := startFrom (d.wayTo d.workingDirectory) p

/-- What the system says about a path before it looks at a disk. -/
def vet (p : Path) : Except Fault Unit :=
  if p.bytes.contains 0 then .error .nulInPath
  else if p.isEmpty then .error (.os .noEntry)
  else if longestPath < p.bytes.length then .error (.os .nameTooLong)
  else .ok ()

/-- The location that some names lead to from a path's beginning. -/
def follow (d : Disk) (p : Path) (names : List Name) : Except Fault Location :=
  match d.walk mostLinks (d.start p) names with
  | .ok l => .ok l
  | .error e => .error (.os e)

/-- The location that a path leads to, through every link. -/
def locate (d : Disk) (p : Path) : Except Fault Location :=
  match vet p with
  | .ok () => d.follow p p.steps
  | .error e => .error e

/-- What a path leads to, through every link. -/
def find? (d : Disk) (p : Path) : Except Fault Node :=
  match d.locate p with
  | .error e => .error e
  | .ok l =>
    match d.node? l with
    | some n => .ok n
    | none => .error (.os .noEntry)

/-- The directory that holds the last of some names. -/
def holder (d : Disk) (p : Path) (names : List Name) : Except Fault Location :=
  match d.follow p names.dropLast with
  | .error e => .error e
  | .ok here => if d.hasDirectory here then .ok here else .error (.os .notDirectory)

/-- The place for the last name of a path, in the directory that the rest leads to; `odd` is the
error if the path does not end in a name that can be given. -/
def slot (d : Disk) (p : Path) (odd : OsError) : Except Fault Location :=
  match vet p with
  | .error e => .error e
  | .ok () =>
    match d.holder p p.names with
    | .error e => .error e
    | .ok here =>
      match p.names.getLast? with
      | none => .error (.os odd)
      | some name =>
        if name = Path.dot || name = Path.dotDot then .error (.os odd)
        else if longestName < name.length then .error (.os .nameTooLong)
        else .ok (name :: here)

end Wheelwright.Disk
