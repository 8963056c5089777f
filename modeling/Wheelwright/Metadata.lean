import Wheelwright.Metadata.HeaderText
import Wheelwright.Metadata.SettingLine
import Wheelwright.Platform
/-!
# Descriptors

Three small texts describe a wheel to installers: the core metadata, the wheel's own descriptor, and
the console command it installs.
-/

namespace Wheelwright

/-- What the core metadata say about a package. -/
structure CoreMetadata where
  name : String
  version : String
  summary : Option String
  homePage : Option String
  author : Option String
  license : Option String
  longDescription : Option String
  deriving DecidableEq, Repr

namespace CoreMetadata

/-- A header has one line: every line end in its value becomes a space. -/
def headerChar (c : Char) : Char := if c = '\r' || c = '\n' then ' ' else c

/-- A value as it stands in a header. -/
def headerValue (value : String) : String := String.ofList (value.toList.map headerChar)

/-- A header that is there only with a value. -/
def optionalHeader (field : String) (value : Option String) : List (String × String) :=
  match value with
  | some v => [(field, v)]
  | none => []

/-- The headers in order, before their values are put on one line. -/
def headers (m : CoreMetadata) : List (String × String) :=
  [("Metadata-Version", "2.1"), ("Name", m.name), ("Version", m.version)] ++
    optionalHeader "Summary" m.summary ++ optionalHeader "Home-page" m.homePage ++
    optionalHeader "Author" m.author ++ optionalHeader "License" m.license ++
    optionalHeader "Description-Content-Type" (m.longDescription.map fun _ => "text/markdown")

/-- A header with its value on one line. -/
def tidy (h : String × String) : String × String := (h.1, headerValue h.2)

/-- The text with a line end at its end. -/
def endingInLine (s : String) : String := if s.toList.getLast? = some '\n' then s else s ++ "\n"

/-- The descriptor: the headers, and the long description as its body. -/
def headerText (m : CoreMetadata) : HeaderText where
  headers := m.headers.map tidy
  body := m.longDescription.map endingInLine

/-- The descriptor as text. -/
def render (m : CoreMetadata) : String := m.headerText.render

end CoreMetadata

/-- The wheel's own descriptor. A wheel with a native program is never pure. -/
def wheelHeaders (platform : PlatformTag) : HeaderText where
  headers := [("Wheel-Version", "1.0"), ("Generator", "bin-to-wheel 0.1.0"),
    ("Root-Is-Purelib", "false"), ("Tag", platform.triple)]
  body := none

/-- The wheel's own descriptor as text. -/
def wheelDescriptor (platform : PlatformTag) : String := (wheelHeaders platform).render

/-- The console command that runs the module's `main`. -/
def entryPoints (command module : String) : String :=
  SettingLine.render [.header "console_scripts", .setting command (module ++ ":main")]

end Wheelwright
