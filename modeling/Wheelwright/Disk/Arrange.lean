import Wheelwright.Disk.Resolve
/-!
# Arranging a disk

The operations with which a disk is set up and looked over: write a file, make a link, take
something away, and list what there is. A file is written where its path leads, even if that is a
place where nothing stands yet.
-/

namespace Wheelwright.Disk

/-! ## Opening for writing -/

/-- Names looked up one after another, to open what they lead to for writing. The last one may be
new, and a link in its place is followed by `follow`; a slash behind it asks for a directory, which
cannot be written to. -/
def openWith (d : Disk) (follow : Way → Bool → List Name → Except OsError Location)
    (here : Way) (endsInSlash : Bool) (names : List Name) : Except OsError Location :=
  match (d.ending here).node, names with
  | none, [] => .ok here.location
  | none, _ => .error .noEntry
  | some (.link target), [] =>
    follow (startFrom here.tail target) target.endsInSlash target.names
  | some (.link target), name :: rest =>
    follow (startFrom here.tail target) endsInSlash (target.names ++ name :: rest)
  | some n, [] => if n.isDirectory then .error .isDirectory else .ok here.location
  | some n, name :: rest =>
    if !n.isDirectory then .error .notDirectory
    else if endsInSlash && rest.isEmpty then .error .isDirectory
    else match d.next here name with
      | .error e => .error e
      | .ok there => openWith d follow there endsInSlash rest

/-- Names looked up to open what they lead to for writing, through at most so many links. -/
def openAfter (d : Disk) : Nat → Way → Bool → List Name → Except OsError Location
  | 0 => d.openWith fun _ _ _ => .error .tooManyLinks
  | links + 1 => d.openWith (d.openAfter links)

/-- The location of the file that is written when a path is opened, which may be a new one. -/
def openFile (d : Disk) (p : Path) : Except Fault Location :=
  match vet p with
  | .error e => .error e
  | .ok () =>
    match d.openAfter mostLinks (d.start p) p.endsInSlash p.names with
    | .ok l => .ok l
    | .error e => .error (.os e)

/-! ## Changes -/

/-- The mode of new files. -/
def fileMode : Nat := 0o644

/-- A file with the given content; one that is there keeps its mode. -/
def write (d : Disk) (p : Path) (content : Bytes) : Except Fault Disk :=
  match d.openFile p with
  | .error e => .error e
  | .ok l =>
    match d.node? l with
    | some (.file mode _) => .ok (d.put l (.file mode content))
    | some _ => .ok d
    | none => .ok (d.put l (.file fileMode content))

/-- A symbolic link at a path. -/
def makeLink (d : Disk) (target p : Path) : Except Fault Disk :=
  match vet target with
  | .error e => .error e
  | .ok () =>
    match d.slot p .fileExists with
    | .error e => .error e
    | .ok l =>
      match d.node? l with
      | some _ => .error (.os .fileExists)
      | none => if p.endsInSlash then .error (.os .noEntry) else .ok (d.put l (.link target))

/-- The disk without the node that a path names, and without everything below it. With a slash
behind its name, nothing but a directory is taken away. -/
def remove (d : Disk) (p : Path) : Except Fault Disk :=
  match d.slot p .busy with
  | .error e => .error e
  | .ok l =>
    match d.node? l with
    | none => .error (.os .noEntry)
    | some n =>
      if n.isDirectory || !p.endsInSlash then
        .ok { d with root := d.root.alter (fun _ => .empty) l.reverse }
      else match d.find? p with
        | .error e => .error e
        | .ok _ => .error (.os .notDirectory)

/-! ## A look around -/

mutual

/-- Everything at a place and below it, with where it is; `l` is where the place is. -/
def nodes (l : Location) : Place → List (Location × Node)
  | ⟨node, children⟩ => (node.toList.map fun n => (l, n)) ++ nodesUnder l children

/-- Everything at some places and below them; `l` is what they are below. -/
def nodesUnder (l : Location) : List (Name × Place) → List (Location × Node)
  | [] => []
  | (name, p) :: rest => nodes (name :: l) p ++ nodesUnder l rest

end

/-- Everything below the working directory: the path from there, and the node. -/
def below (d : Disk) : List (Path × Node) :=
  (nodesUnder [] (d.place d.workingDirectory).children).map fun (l, n) =>
    (⟨Split.glue Path.slash l.reverse⟩, n)

end Wheelwright.Disk
