import Wheelwright.Text.LowerCase
/-!
# Package names

The name that people write stays in the metadata; whatever becomes part of a path uses the
normalized form, in lower case and with `_` for `-` and `.`.
-/

namespace Wheelwright

/-- The normalized form of one character of a name. -/
def normalizeChar (c : Char) : List Char := if c = '-' || c = '.' then ['_'] else Text.lowerChar c

/-- Lower case, with `_` for `-` and `.`; every other character is kept. -/
def normalize (name : String) : String := String.ofList (name.toList.flatMap normalizeChar)

/-- The directory of a wheel's descriptors, from the normalized name. -/
def distInfo (normalized version : String) : String := normalized ++ "-" ++ version ++ ".dist-info"

@[simp] theorem toList_normalize (name : String) :
    (normalize name).toList = name.toList.flatMap normalizeChar := by
  simp [normalize]

end Wheelwright
