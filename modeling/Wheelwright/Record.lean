import Wheelwright.Csv
import Wheelwright.Digest
/-!
# The manifest

A wheel lists its members in a table of comma-separated values: path, digest and size of each, and
last the manifest itself, which cannot hold its own digest.
-/

namespace Wheelwright

/-- A file of a wheel; its path has slashes between the names. -/
structure Member where
  path : String
  content : Bytes
  deriving DecidableEq, Repr

/-- A row of the manifest; the manifest's own row has neither digest nor size. -/
structure RecordRow where
  path : String
  hash : Option String
  size : Option Nat
  deriving DecidableEq, Repr

namespace RecordRow

/-- The row of a member with known content. -/
def ofContent (path : String) (content : Bytes) : RecordRow :=
  ⟨path, some ("sha256=" ++ recordDigest content), some content.length⟩

/-- The row of a member whose digest cannot be given. -/
def unhashed (path : String) : RecordRow := ⟨path, none, none⟩

/-- The row without its line end. Only the path is put between quotes if it needs them. -/
def render (row : RecordRow) : String :=
  String.ofList (Csv.field row.path) ++ "," ++ row.hash.getD "" ++ "," ++
    (row.size.map Nat.repr).getD ""

end RecordRow

/-- The rows of a manifest stored at `recordPath`: one for each other member, and its own. -/
def recordRows (members : List Member) (recordPath : String) : List RecordRow :=
  (members.filter (·.path ≠ recordPath)).map (fun m => .ofContent m.path m.content) ++
    [.unhashed recordPath]

/-- The text of a manifest stored at `recordPath`: its rows, each with its line end. -/
def renderRecord (members : List Member) (recordPath : String) : String :=
  String.ofList ((recordRows members recordPath).flatMap fun row => row.render.toList ++ ['\n'])

end Wheelwright
