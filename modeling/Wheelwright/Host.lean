import Wheelwright.Disk.OsError
import Wheelwright.Log
/-!
# The machine that a build runs on

A build reads and writes files, says what it does, and may ask what machine it is on. Everything it
needs is in the class `Host`, so that one definition of a build runs on the real machine and on a
simulated one.
-/

namespace Wheelwright

/-- An operating system and a processor. -/
structure Machine where
  os : String
  arch : String
  deriving DecidableEq, Repr

/-- What a build needs from the machine it runs on. -/
class Host (m : Type → Type) where
  /-- A staged file: not yet in its place. -/
  Staged : Type
  /-- Report an event. -/
  log : Event → m Unit
  /-- The machine itself. -/
  machine : m Machine
  /-- Whether a path leads to a regular file. -/
  isRegularFile : Path → m Bool
  /-- Whether a path leads to a directory. -/
  isDirectory : Path → m Bool
  /-- The content of a file. -/
  readFile : Path → m (Except Fault Bytes)
  /-- Make one directory. -/
  makeDirectory : Path → m (Except Fault Unit)
  /-- Begin an empty file under a fresh name in a directory. -/
  stage : Path → m (Except Fault Staged)
  /-- Give a staged file its content. -/
  fill : Staged → Bytes → m (Except Fault Unit)
  /-- Give a staged file its mode. -/
  setMode : Staged → Nat → m (Except Fault Unit)
  /-- Move a staged file to its place, over a file or link that is there. -/
  publish : Staged → Path → m (Except Fault Unit)
  /-- Take a staged file away. -/
  discard : Staged → m Unit

end Wheelwright
