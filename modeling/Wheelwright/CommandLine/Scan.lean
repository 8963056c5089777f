import Wheelwright.CommandLine.Option
import Wheelwright.Disk.Path
/-!
# Scanning arguments

The arguments are read from left to right as a list of items, up to the first that cannot be read.
A value may be attached to its option with `=` or be the next argument, and then it may not look
like an option itself. A value from the next argument counts only when what follows it could be
read too.
-/

namespace Wheelwright.CommandLine

/-- Why a command line is refused, or not followed. -/
inductive UsageError where
  | displayHelp
  | missingRequiredArgument
  | argumentConflict
  | invalidValue
  | unknownArgument
  | tooManyValues
  | invalidUtf8
  deriving DecidableEq, Repr

/-! ## Single arguments -/

/-- The byte that options begin with. -/
def dash : UInt8 := 0x2D

/-- The byte between an option and its attached value. -/
def equalsSign : UInt8 := 0x3D

/-- What an argument looks like. -/
inductive Word where
  /-- Two dashes: what follows is no option. -/
  | endOfOptions
  /-- Two dashes and more, with what follows the first `=`. -/
  | long (name : Bytes) (attached : Option Bytes)
  /-- One dash and letters. -/
  | short (letters : Bytes)
  /-- Anything else, a lone dash among it. -/
  | plain (value : Bytes)
  deriving DecidableEq, Repr

/-- A name, and what follows the first `=`. -/
def splitAttached (bs : Bytes) : Word :=
  match bs.dropWhile (· ≠ equalsSign) with
  | [] => .long bs none
  | _ :: value => .long (bs.takeWhile (· ≠ equalsSign)) (some value)

/-- What an argument looks like. -/
def Word.ofBytes (bs : Bytes) : Word :=
  match bs with
  | [] => .plain []
  | a :: rest =>
    if a ≠ dash then .plain (a :: rest)
    else match rest with
      | [] => .plain [a]
      | b :: more =>
        if b ≠ dash then .short (b :: more)
        else if more = [] then .endOfOptions
        else splitAttached more

/-! ## Items -/

/-- What an argument or two say. -/
inductive Item where
  | value (k : Key) (given : Bytes)
  | switch (s : Switch)
  | verbose
  | help
  deriving DecidableEq, Repr

/-- Items in order, and the error that ended them, if one did. -/
structure Reading where
  items : List Item
  error : Option UsageError
  deriving DecidableEq, Repr

/-- The reading with some items before it. -/
def Reading.after (items : List Item) (r : Reading) : Reading :=
  { r with items := items ++ r.items }

/-- A reading that ends at once. -/
def Reading.stop (e : UsageError) : Reading := ⟨[], some e⟩

/-- What is open between two arguments. -/
inductive Pending where
  | nothing
  /-- The option has no value yet. -/
  | awaiting (k : Key)
  /-- The last argument is the option's value. -/
  | holding (k : Key) (given : Bytes)
  deriving DecidableEq, Repr

/-- What was open, as items, now that something else follows that can be read. -/
def Pending.settle : Pending → Except UsageError (List Item)
  | .nothing => .ok []
  | .awaiting _ => .error .invalidValue
  | .holding k given => .ok [.value k given]

/-- The reading with what was open before it. -/
def Pending.then (p : Pending) (r : Reading) : Reading :=
  match p.settle with
  | .ok items => r.after items
  | .error e => .stop e

/-- The items of letters after one dash, up to the first that is no option; the flag says whether
all could be read. -/
def letterItems : List (Option Char) → List Item × Bool
  | [] => ([], true)
  | none :: _ => ([], false)
  | some c :: cs =>
    match Meaning.ofLetter? c with
    | some (.switch s) =>
      let (items, all) := letterItems cs
      (.switch s :: items, all)
    | some .verbose =>
      let (items, all) := letterItems cs
      (.verbose :: items, all)
    | some .help =>
      let (items, all) := letterItems cs
      (.help :: items, all)
    | _ => ([], false)

/-- The arguments as items. -/
def scanFrom : Pending → List Bytes → Reading
  | p, [] => p.then ⟨[], none⟩
  | p, arg :: args =>
    match Word.ofBytes arg with
    | .endOfOptions =>
      if args = [] then p.then ⟨[], none⟩ else .stop .unknownArgument
    | .long name attached =>
      match (Utf8.decode? name).bind Meaning.ofSpelling?, attached with
      | none, _ => .stop .unknownArgument
      | some (.key k), none => p.then (scanFrom (.awaiting k) args)
      | some (.key k), some given => p.then ((scanFrom .nothing args).after [.value k given])
      | some _, some _ => .stop .tooManyValues
      | some (.switch s), none => p.then ((scanFrom .nothing args).after [.switch s])
      | some .verbose, none => p.then ((scanFrom .nothing args).after [.verbose])
      | some .help, none => p.then ((scanFrom .nothing args).after [.help])
    | .short letters =>
      match letterItems (Utf8.scan letters) with
      | ([], _) => .stop .unknownArgument
      | (items, true) => p.then ((scanFrom .nothing args).after items)
      | (items, false) => p.then ⟨items, some .unknownArgument⟩
    | .plain given =>
      match p with
      | .awaiting k => scanFrom (.holding k given) args
      | _ => .stop .unknownArgument

/-- The arguments as items, up to the first that cannot be read. -/
def scan (args : List Bytes) : Reading := scanFrom .nothing args

end Wheelwright.CommandLine
