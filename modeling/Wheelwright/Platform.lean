import Wheelwright.Text.Split
/-!
# Platform tags

A wheel with a native program says on which platforms it can be installed. People may name one of
four friendly aliases; installers know canonical tags, and a canonical tag, or a dotted set of them,
is taken as it is. Everything else is refused.
-/

namespace Wheelwright

/-- Why no platform tag could be chosen. -/
inductive PlatformError where
  /-- The text is neither an alias nor a canonical tag. -/
  | unknown (input : String)
  /-- There is no tag for this kind of machine. -/
  | unsupportedHost (os arch : String)
  deriving DecidableEq, Repr

/-- What is told to the user. -/
def PlatformError.message : PlatformError → String
  | .unknown input =>
    "Unknown platform `" ++ input ++ "` (expected one of linux-x86_64, macos-arm64, " ++
      "macos-x86_64, windows-x64 or a canonical wheel platform tag)"
  | .unsupportedHost os arch =>
    "Unknown platform: no wheel tag for host " ++ os ++ "/" ++ arch ++
      "; pass an explicit platform"

/-- A platform that a wheel is tagged with, such as `win_amd64`. -/
structure PlatformTag where
  text : String
  deriving DecidableEq, Repr

/-- The compatibility triple: any Python 3, no particular binary interface, this platform. -/
def PlatformTag.triple (tag : PlatformTag) : String := "py3-none-" ++ tag.text

namespace Platform

/-- The friendly aliases and what they stand for. -/
def aliases : List (String × String) :=
  [("linux-x86_64", "manylinux_2_17_x86_64"), ("macos-arm64", "macosx_11_0_arm64"),
    ("macos-x86_64", "macosx_10_15_x86_64"), ("windows-x64", "win_amd64")]

/-! ## Canonical tags -/

/-- The Windows tags, which have no parts. -/
def windowsTags : List String := ["win32", "win_amd64", "win_arm64"]

/-- What comes before the architecture in tags without version numbers. -/
def plainFamilies : List String := ["linux_", "manylinux1_", "manylinux2010_", "manylinux2014_"]

/-- What comes before the two version numbers in tags that have them. -/
def versionedFamilies : List String := ["manylinux_", "musllinux_", "macosx_"]

/-- One or more ASCII digits. -/
def isNumber (cs : List Char) : Bool := !cs.isEmpty && cs.all Char.isDigit

/-- A small ASCII letter, an ASCII digit or an underscore. -/
def isArchChar (c : Char) : Bool := c.isLower || c.isDigit || c == '_'

/-- The name of an architecture: it has a character, and the first is no underscore. -/
def isArch (cs : List Char) : Bool := !cs.isEmpty && cs.head? != some '_' && cs.all isArchChar

/-- What follows `start` in a text that begins with it. -/
def after? (start : List Char) (cs : List Char) : Option (List Char) :=
  if start.isPrefixOf cs then some (cs.drop start.length) else none

/-- Two numbers and an architecture, each followed by an underscore but the last. -/
def isVersionedArch (cs : List Char) : Bool :=
  match cs.dropWhile (· ≠ '_') with
  | [] => false
  | _ :: rest =>
    match rest.dropWhile (· ≠ '_') with
    | [] => false
    | _ :: arch =>
      isNumber (cs.takeWhile (· ≠ '_')) && isNumber (rest.takeWhile (· ≠ '_')) && isArch arch

/-- A canonical tag for one platform. -/
def isSingleTag (cs : List Char) : Bool :=
  aliases.any (·.2.toList == cs) || windowsTags.any (·.toList == cs) ||
    plainFamilies.any (fun f => (after? f.toList cs).any isArch) ||
    versionedFamilies.any (fun f => (after? f.toList cs).any isVersionedArch)

/-- A canonical tag: one or more tags for one platform, with dots between them. -/
def isCanonical (tag : String) : Bool := (Split.pieces '.' tag.toList).all isSingleTag

/-! ## Choosing a tag -/

/-- The tag that an alias or a canonical tag stands for. -/
def resolve (input : String) : Except PlatformError PlatformTag :=
  match aliases.lookup input with
  | some tag => .ok ⟨tag⟩
  | none => if isCanonical input then .ok ⟨input⟩ else .error (.unknown input)

/-- The machines that have a tag: operating system, processor, and an alias or canonical tag. -/
def hosts : List ((String × String) × String) :=
  [(("linux", "x86_64"), "linux-x86_64"), (("linux", "aarch64"), "manylinux_2_17_aarch64"),
    (("macos", "aarch64"), "macos-arm64"), (("macos", "x86_64"), "macos-x86_64"),
    (("windows", "x86_64"), "windows-x64"), (("windows", "aarch64"), "win_arm64"),
    (("windows", "x86"), "win32")]

/-- The alias or canonical tag of a machine. -/
def ofHost (os arch : String) : Except PlatformError String :=
  match hosts.lookup (os, arch) with
  | some platform => .ok platform
  | none => .error (.unsupportedHost os arch)

end Platform
end Wheelwright
