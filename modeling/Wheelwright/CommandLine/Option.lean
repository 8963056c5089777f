/-!
# The options of the command line

Options with a value, plain switches that may be given once, and two that stand apart: `-v` counts
and `-h` ends everything.
-/

namespace Wheelwright.CommandLine

/-- An option that takes a value. -/
inductive Key where
  | name
  | version
  | binary
  | platform
  | outputDir
  | entryPoint
  | description
  | author
  | license
  | url
  | longDescription
  | readme
  deriving DecidableEq, Repr

/-- A switch that may be given once. -/
inductive Switch where
  | autoPlatform
  | quiet
  | trace
  | json
  | noColor
  deriving DecidableEq, Repr

namespace Key

/-- Every option with a value, in the order of the help text. -/
def all : List Key :=
  [name, version, binary, platform, outputDir, entryPoint, description, author, license, url,
    longDescription, readme]

/-- How the option is written after two dashes. -/
def spelling : Key → String
  | name => "name"
  | version => "version"
  | binary => "binary"
  | platform => "platform"
  | outputDir => "output-dir"
  | entryPoint => "entry-point"
  | description => "description"
  | author => "author"
  | license => "license"
  | url => "url"
  | longDescription => "long-description"
  | readme => "readme"

/-- Whether the value is a path; the others are text. -/
def takesPath : Key → Bool
  | binary | outputDir | readme => true
  | _ => false

end Key

namespace Switch

/-- Every switch. -/
def all : List Switch := [autoPlatform, quiet, trace, json, noColor]

/-- How the switch is written after two dashes. -/
def spelling : Switch → String
  | autoPlatform => "auto-platform"
  | quiet => "quiet"
  | trace => "trace"
  | json => "json"
  | noColor => "no-color"

end Switch

/-- What a long option can be. -/
inductive Meaning where
  | key (k : Key)
  | switch (s : Switch)
  | verbose
  | help
  deriving DecidableEq, Repr

namespace Meaning

/-- Every long option. -/
def all : List Meaning := Key.all.map key ++ Switch.all.map switch ++ [verbose, help]

/-- How the option is written after two dashes. -/
def spelling : Meaning → String
  | key k => k.spelling
  | switch s => s.spelling
  | verbose => "verbose"
  | help => "help"

/-- The option that is written so after two dashes. -/
def ofSpelling? (s : String) : Option Meaning := all.find? (·.spelling = s)

/-- The option that a letter after one dash stands for. -/
def ofLetter? (c : Char) : Option Meaning :=
  match c with
  | 'q' => some (switch .quiet)
  | 'v' => some verbose
  | 'h' => some help
  | _ => none

end Meaning
end Wheelwright.CommandLine
