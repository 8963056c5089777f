import Wheelwright.Program
/-!
# The command line program

The machine at hand as a host: files are read, staged and renamed where they are, and log lines go
to standard error as they come. What is done and what is printed is settled in `Program.run`.
-/

namespace Wheelwright

/-- A run on the machine at hand, which logs from a level on. -/
abbrev Live := ReaderT Level IO

namespace Live

/-- The machine that the program is made for. -/
def machine : Machine := ⟨"linux", "x86_64"⟩

/-- The fault that an error of the system stands for. -/
def fault : IO.Error → Fault
  | .alreadyExists _ code _ | .interrupted _ code _ | .noFileOrDirectory _ code _
  | .invalidArgument _ code _ | .permissionDenied _ code _ | .resourceExhausted _ code _
  | .inappropriateType _ code _ | .noSuchThing _ code _ | .otherError code _
  | .resourceBusy code _ | .resourceVanished code _ | .unsupportedOperation code _
  | .hardwareFault code _ | .unsatisfiedConstraints code _ | .illegalOperation code _
  | .protocolError code _ | .timeExpired code _ => .os ⟨code.toNat⟩
  | .unexpectedEof => .other "unexpected end of file"
  | .userError text => .other text

/-- An action, with the fault if it fails. -/
def faulty {α : Type} (action : IO α) : Live (Except Fault α) := do
  match ← action.toBaseIO with
  | .ok a => return .ok a
  | .error e => return .error (fault e)

/-- Whether a path can be opened for reading. -/
def opens (path : String) : Live Bool := do
  match ← faulty (IO.FS.Handle.mk path .read) with
  | .ok _ => return true
  | .error _ => return false

/-- The access rights that a mode stands for. -/
def rights (mode : Nat) : IO.FileRight :=
  let right (n : Nat) : IO.AccessRight := ⟨n.testBit 2, n.testBit 1, n.testBit 0⟩
  ⟨right (mode / 64), right (mode / 8), right mode⟩

/-- An empty file under a fresh name in a directory, after at most so many attempts. -/
def stage (dir : Path) : Nat → Live (Except Fault Path)
  | 0 => return .error (.os .fileExists)
  | attempts + 1 => do
    let name := ".tmp" ++ String.ofList (Hex.encode (← IO.getRandomBytes 3).toList)
    let path := dir.join (.ofString name)
    match ← faulty (IO.FS.Handle.mk path.display .writeNew) with
    | .ok _ =>
      match ← faulty (IO.setAccessRights path.display (rights Disk.stagedMode)) with
      | .ok () => return .ok path
      | .error e => return .error e
    | .error e => if e = .os .fileExists then stage dir attempts else return .error e

/-- A variable as it stands in the block of variables: name and value, with the first equals sign
between them that is not the name's own beginning. -/
def entry? : Bytes → Option (Bytes × Bytes)
  | [] => none
  | b :: bs =>
    match bs.span (· ≠ 0x3D) with
    | (_, []) => none
    | (name, _ :: value) => some (b :: name, value)

/-- The variables of this process, each of which ends in a zero. -/
def readVariables : IO Variables := do
  let block ← IO.FS.readBinFile "/proc/self/environ"
  return ⟨(Split.pieces 0 block.toList).filterMap entry?⟩

end Live

/-- The machine at hand is a host. -/
instance : Host Live where
  Staged := Path
  log e := do
    if e.isShownAt (← read) then (← IO.getStderr).putStrLn e.render
  machine := return Live.machine
  isRegularFile p := do
    if ← Live.opens p.display then return !(← Live.opens (p.display ++ "/.")) else return false
  isDirectory p := Live.opens (p.display ++ "/.")
  readFile p := return (← Live.faulty (IO.FS.readBinFile p.display)).map ByteArray.toList
  makeDirectory p := Live.faulty (IO.FS.createDir p.display)
  stage dir := Live.stage dir 64
  fill staged content :=
    Live.faulty (IO.FS.writeBinFile staged.display (ByteArray.mk content.toArray))
  setMode staged mode := Live.faulty (IO.setAccessRights staged.display (Live.rights mode))
  publish staged p := Live.faulty (IO.FS.rename staged.display p.display)
  discard staged := do
    let _ ← Live.faulty (IO.FS.removeFile staged.display)

end Wheelwright

open Wheelwright in
/-- Run the program with the given arguments. -/
def main (args : List String) : IO UInt32 := do
  let args := args.map Utf8.encode
  let terminals : Terminals := ⟨← (← IO.getStdout).isTty, ← (← IO.getStderr).isTty⟩
  let live : Live Exit := Program.run (← Live.readVariables) terminals args Zip.stored
  let exit ← live.run (Program.threshold args)
  (← IO.getStdout).putStr exit.stdout
  (← IO.getStderr).putStr exit.stderr
  return exit.code.toUInt32
