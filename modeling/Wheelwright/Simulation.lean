import Wheelwright.Disk.Files
import Wheelwright.Host
/-!
# A simulated machine

A world is a machine, a disk, and the events reported so far. Each operation of a host changes it
as a real machine's superuser would see it change.
-/

namespace Wheelwright

/-- A machine with its disk, and what has been reported. -/
structure World where
  machine : Machine
  disk : Disk
  journal : List Event
  deriving Repr

/-- A computation that runs on a world. -/
abbrev Simulation := StateM World

namespace World

/-- The world with a further event. -/
def report (w : World) (e : Event) : World := { w with journal := w.journal ++ [e] }

/-- The world with another disk, if there is one. -/
def settle (w : World) : Except Fault Disk → Except Fault Unit × World
  | .ok d => (.ok (), { w with disk := d })
  | .error f => (.error f, w)

/-- The world after staging. -/
def stage (w : World) (dir : Path) : Except Fault Location × World :=
  match w.disk.stage dir with
  | .ok (l, d) => (.ok l, { w with disk := d })
  | .error f => (.error f, w)

end World

/-- A world is a host: every operation is the one of the same name on its disk. -/
instance : Host Simulation where
  Staged := Location
  log e := fun w => ((), w.report e)
  machine := fun w => (w.machine, w)
  isRegularFile p := fun w => (w.disk.isRegularFile p, w)
  isDirectory p := fun w => (w.disk.isDirectory p, w)
  readFile p := fun w => (w.disk.read p, w)
  makeDirectory p := fun w => w.settle (w.disk.makeDirectory p)
  stage dir := fun w => w.stage dir
  fill staged content := fun w => w.settle (.ok (w.disk.fill staged content))
  setMode staged mode := fun w => w.settle (.ok (w.disk.setMode staged mode))
  publish staged p := fun w => w.settle (w.disk.publish staged p)
  discard staged := fun w => ((), { w with disk := w.disk.drop staged })

end Wheelwright
