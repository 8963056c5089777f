import Wheelwright.Disk.OsError
import Wheelwright.Disk.Place
/-!
# A disk as a value

A disk is a tree of places with a working directory. It is looked at through `node?` alone: two
disks are the same if `node?` cannot tell them apart (`Disk.Same`). The lemmas here say what `put`
and `drop` do to that view.
-/

namespace Wheelwright

/-- Where something is on a disk: the names that lead there from the root, the last one first. -/
abbrev Location := List Name

/-- The places below a root, and the directory in which relative paths begin. -/
structure Disk where
  root : Place
  workingDirectory : Location
  deriving Repr

namespace Disk

/-- The place at a location. -/
def place (d : Disk) (l : Location) : Place := d.root.descend l.reverse

/-- What is at a location. -/
def node? (d : Disk) (l : Location) : Option Node := (d.place l).node

/-- The disk with a node at a location, in place of what was there. -/
def put (d : Disk) (l : Location) (n : Node) : Disk :=
  { d with root := d.root.alter (·.setNode (some n)) l.reverse }

/-- The disk without the node at a location. -/
def drop (d : Disk) (l : Location) : Disk :=
  { d with root := d.root.alter (·.setNode none) l.reverse }

/-- Whether there is a directory at a location. -/
def hasDirectory (d : Disk) (l : Location) : Bool := (d.node? l).any Node.isDirectory

/-- No look at one of the disks tells them apart. -/
def Same (d e : Disk) : Prop :=
  d.workingDirectory = e.workingDirectory ∧ ∀ l, d.node? l = e.node? l

/-! ## What the changes do to the view -/

@[simp] theorem node?_put_self (d : Disk) (l : Location) (n : Node) :
    (d.put l n).node? l = some n := by
  simp only [node?, place, put, Place.descend_alter_self, Place.setNode]

theorem node?_put_of_ne (d : Disk) {l m : Location} (h : m ≠ l) (n : Node) :
    (d.put l n).node? m = d.node? m :=
  Place.node_descend_alter_of_ne (·.children_setNode _) d.root fun e => h (List.reverse_inj.1 e)

@[simp] theorem node?_drop_self (d : Disk) (l : Location) : (d.drop l).node? l = none := by
  simp only [node?, place, drop, Place.descend_alter_self, Place.setNode]

theorem node?_drop_of_ne (d : Disk) {l m : Location} (h : m ≠ l) :
    (d.drop l).node? m = d.node? m :=
  Place.node_descend_alter_of_ne (·.children_setNode _) d.root fun e => h (List.reverse_inj.1 e)

@[simp] theorem workingDirectory_put (d : Disk) (l : Location) (n : Node) :
    (d.put l n).workingDirectory = d.workingDirectory := rfl

@[simp] theorem workingDirectory_drop (d : Disk) (l : Location) :
    (d.drop l).workingDirectory = d.workingDirectory := rfl

/-! ## Ways down -/

/-- A way down from the root: the names on it with the places that they lead to, the last one
first. The next name is looked up from its end, not from the root. -/
abbrev Way := List (Name × Place)

/-- Where a way ends. -/
def Way.location (way : Way) : Location := way.map (·.1)

/-- The place at which a way ends. -/
def ending (d : Disk) : Way → Place
  | [] => d.root
  | (_, place) :: _ => place

/-- A way with one more name. -/
def onward (d : Disk) (way : Way) (name : Name) : Way := (name, (d.ending way).child name) :: way

/-- The way to a location. -/
def wayTo (d : Disk) : Location → Way
  | [] => []
  | name :: above => d.onward (d.wayTo above) name

@[simp] theorem location_wayTo (d : Disk) (l : Location) : Way.location (d.wayTo l) = l := by
  induction l with
  | nil => rfl
  | cons name above ih => exact congrArg (name :: ·) ih

/-- The way to a location ends at the place that is there. -/
@[simp] theorem ending_wayTo (d : Disk) (l : Location) : d.ending (d.wayTo l) = d.place l := by
  induction l with
  | nil => rfl
  | cons name above ih =>
    have h : (d.place above).child name = d.place (name :: above) := by
      simp only [place, List.reverse_cons, Place.descend_append, Place.descend]
    rw [← h, ← ih, wayTo, onward, ending]

/-- The way to a location goes through the one above it. -/
@[simp] theorem tail_wayTo (d : Disk) (l : Location) : (d.wayTo l).tail = d.wayTo l.tail := by
  cases l <;> rfl

end Disk
end Wheelwright
