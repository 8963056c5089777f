import Wheelwright.Digest.Sha256
import Wheelwright.Digest.Hex
import Wheelwright.Digest.Base64Url
/-!
# Digests as text

A manifest carries a digest in base64, people see it in hexadecimal.
-/

namespace Wheelwright

/-- The digest in the form that manifests carry. -/
def recordDigest (content : Bytes) : String :=
  String.ofList (Base64Url.encode (Sha256.digest content))

/-- The digest in the form that people compare. -/
def hexDigest (content : Bytes) : String := String.ofList (Hex.encode (Sha256.digest content))

theorem length_recordDigest (content : Bytes) : (recordDigest content).length = 43 := by
  rw [recordDigest, String.length_ofList, Base64Url.length_encode, Sha256.length_digest]

theorem length_hexDigest (content : Bytes) : (hexDigest content).length = 64 := by
  rw [hexDigest, String.length_ofList, Hex.length_encode, Sha256.length_digest]

/-- The bytes of some text up to a bound, if the bound falls between two characters. -/
def takeBytes? : Nat → List Char → Option (List Char)
  | 0, _ => some []
  | _ + 1, [] => none
  | n + 1, c :: cs =>
    let width := (Utf8.encodeChar c).length
    if width ≤ n + 1 then (takeBytes? (n + 1 - width) cs).map (c :: ·) else none

/-- The first twelve bytes of a digest's text; all of it if it is shorter or the twelfth byte is
inside a character. -/
def shortDigest (digest : String) : String :=
  match takeBytes? 12 digest.toList with
  | some cs => String.ofList cs
  | none => digest

end Wheelwright
