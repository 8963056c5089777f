/-!
# The grammar of platform tags

Which texts are canonical tags, said without an algorithm and without the tables of one: a tag for
one platform is a family with what the family needs after it, and a canonical tag is one or more of
them with dots between them.
-/

namespace Wheelwright.Platform

/-- One or more ASCII digits. -/
def IsNumber (cs : List Char) : Prop := cs ≠ [] ∧ ∀ c ∈ cs, c.isDigit = true

/-- Small ASCII letters, ASCII digits and underscores, the first no underscore, and at least one. -/
def IsArch (cs : List Char) : Prop :=
  cs ≠ [] ∧ cs.head? ≠ some '_' ∧ ∀ c ∈ cs, c.isLower = true ∨ c.isDigit = true ∨ c = '_'

/-- The tags for one platform: a Windows tag, Linux or an old form of it with an architecture, or a
system with two version numbers and an architecture. -/
inductive SingleTag : List Char → Prop
  | windows {tag : String} (h : tag ∈ ["win32", "win_amd64", "win_arm64"]) : SingleTag tag.toList
  | linux {arch : List Char} (ha : IsArch arch) : SingleTag ("linux_".toList ++ arch)
  | legacy {family : String} {arch : List Char}
      (h : family ∈ ["manylinux1_", "manylinux2010_", "manylinux2014_"]) (ha : IsArch arch) :
      SingleTag (family.toList ++ arch)
  | versioned {family : String} {major minor arch : List Char}
      (h : family ∈ ["manylinux_", "musllinux_", "macosx_"]) (hmajor : IsNumber major)
      (hminor : IsNumber minor) (ha : IsArch arch) :
      SingleTag (family.toList ++ (major ++ '_' :: (minor ++ '_' :: arch)))

/-- The canonical tags: one or more tags for one platform, with dots between them. -/
inductive CanonicalTag : List Char → Prop
  | one {tag : List Char} (h : SingleTag tag) : CanonicalTag tag
  | more {tag rest : List Char} (h : SingleTag tag) (hr : CanonicalTag rest) :
      CanonicalTag (tag ++ '.' :: rest)

end Wheelwright.Platform
