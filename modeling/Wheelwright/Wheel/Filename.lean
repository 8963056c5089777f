import Wheelwright.Platform
/-!
# What a wheel is called

A wheel's name has the normalized package name, the version and the compatibility triple with dashes
between them. A normalized name has no dash and neither has a tag, so the parts can be told apart
even when the version has dashes.
-/

namespace Wheelwright

/-- What a wheel is called. -/
def wheelFilename (normalized version : String) (platform : PlatformTag) : String :=
  normalized ++ "-" ++ version ++ "-" ++ platform.triple ++ ".whl"

/-- The parts of a wheel's name. -/
structure WheelName where
  normalized : String
  version : String
  platform : PlatformTag
  deriving DecidableEq, Repr

namespace WheelName

/-- The end of a wheel's name. -/
def extension : List Char := ".whl".toList

/-- The parts between dashes, the last first: the tag, `none`, `py3`, the version's own, the
name. -/
def ofPieces? : List (List Char) → Option WheelName
  | tag :: binary :: python :: rest =>
    match rest.reverse with
    | [] | [_] => none
    | name :: version =>
      if binary = "none".toList ∧ python = "py3".toList then
        some ⟨String.ofList name, String.ofList (Split.glue '-' version), ⟨String.ofList tag⟩⟩
      else none
  | _ => none

/-- The parts of a wheel's name, from the name. -/
def read? (filename : String) : Option WheelName :=
  let cs := filename.toList
  let stem := cs.take (cs.length - extension.length)
  if cs = stem ++ extension then ofPieces? (Split.pieces '-' stem).reverse else none

end WheelName
end Wheelwright
