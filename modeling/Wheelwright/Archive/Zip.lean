import Wheelwright.Archive.Deflate
import Wheelwright.Archive.Little
import Wheelwright.Archive.Stamp
import Wheelwright.Digest.Checksum
import Wheelwright.Record
/-!
# Zip archives

An archive is a sequence of members, each a local header and a packed content, then a directory
with a record for each member, then a record that says where the directory is. Every header is
written for a regular file that everybody may run, under Unix. How contents are packed is left to a
codec: any that unpacks what it packed will do, and `stored` is the simplest.

The format keeps places and sizes in 32 bits. A member has at most as many bytes as these can say,
but many members together may have more: then a wide field in the directory record says where a
member begins, and a wide record and a locator, in front of the record at the end, say where the
directory is.
-/

namespace Wheelwright.Zip

/-! ## Codecs -/

/-- A way to pack contents and to unpack them again. -/
structure Codec where
  pack : Bytes → Bytes
  unpack : Bytes → Option Bytes
  unpack_pack : ∀ content, unpack (pack content) = some content

/-- Deflate with stored blocks. -/
def stored : Codec := ⟨Deflate.deflate, Deflate.inflate, Deflate.inflate_deflate⟩

/-! ## Headers -/

/-- The largest number in 16 bits. -/
def most16 : Nat := 0xFFFF

/-- The largest number in 32 bits. -/
def most32 : Nat := 0xFFFFFFFF

/-- The most bytes in a member. -/
def largestMember : Nat := most32

/-- What the local header and the directory record of a member say. -/
structure Header where
  /-- Where the local header begins. -/
  offset : Nat
  name : Bytes
  flags : Nat
  date : Nat
  time : Nat
  crc32 : Nat
  packedSize : Nat
  size : Nat
  deriving DecidableEq, Repr

/-- The version of the format that is written. -/
def version : Nat := 46

/-- The version of the format that is written, under Unix. -/
def versionMadeBy : Nat := 3 * 256 + version

/-- The version of the format that a reader needs, by the place where the member begins. -/
def versionNeeded (offset : Nat) : Nat := if offset ≤ most32 then 20 else 45

/-- The method of deflated members. -/
def deflated : Nat := 8

/-- The flag of names that are not ASCII. -/
def utf8Flag : Nat := 2048

/-- A regular file that everybody may read and run and its owner may write. -/
def memberMode : Nat := 0o100755

/-- The mark of a local header. -/
def localMark : Nat := 0x04034b50

/-- The mark of a directory record. -/
def directoryMark : Nat := 0x02014b50

/-- The mark of the record at the end. -/
def endMark : Nat := 0x06054b50

/-- The mark of a wide field. -/
def wideMark : Nat := 0x0001

/-- The mark of the wide record in front of the record at the end. -/
def wideEndMark : Nat := 0x06064b50

/-- The mark of the locator of the wide record. -/
def locatorMark : Nat := 0x07064b50

/-- The header at `offset` of a member whose content is packed. -/
def Header.ofMember (stamp : Stamp) (offset : Nat) (m : Member) (packed : Bytes) : Header where
  offset := offset
  name := Utf8.encode m.path
  flags := if m.path.toList.all (·.toNat < 128) then 0 else utf8Flag
  date := stamp.dosDate
  time := stamp.dosTime
  crc32 := (Checksum.crc32 m.content).toNat
  packedSize := packed.length
  size := m.content.length

/-- The fields that a local header and a directory record share, in order. -/
def Header.shared (h : Header) : Bytes :=
  Little.write 2 (versionNeeded h.offset) ++ Little.write 2 h.flags ++ Little.write 2 deflated ++
    Little.write 2 h.time ++ Little.write 2 h.date ++ Little.write 4 h.crc32 ++
    Little.write 4 h.packedSize ++ Little.write 4 h.size ++ Little.write 2 h.name.length

/-- The header in front of a member's content. -/
def Header.local (h : Header) : Bytes :=
  Little.write 4 localMark ++ h.shared ++ Little.write 2 0 ++ h.name

/-- The wide field of a directory record, if 32 bits cannot say where the member begins. -/
def Header.extra (h : Header) : Bytes :=
  if h.offset ≤ most32 then []
  else Little.write 2 wideMark ++ Little.write 2 8 ++ Little.write 8 h.offset

/-- The directory record of a member. -/
def Header.record (h : Header) : Bytes :=
  Little.write 4 directoryMark ++ Little.write 2 versionMadeBy ++ h.shared ++
    Little.write 2 h.extra.length ++ Little.write 2 0 ++ Little.write 2 0 ++ Little.write 2 0 ++
    Little.write 4 (memberMode * 65536) ++ Little.write 4 (min h.offset most32) ++ h.name ++ h.extra

/-! ## The end -/

/-- What is said of a directory: how many records it has, in how many bytes, and where. -/
structure Directory where
  count : Nat
  size : Nat
  offset : Nat
  deriving DecidableEq, Repr

namespace Directory

/-- Whether the record at the end cannot say this. -/
def isWide (d : Directory) : Bool := most16 < d.count || most32 < max d.size d.offset

/-- The wide record of a directory. -/
def wideRecord (d : Directory) : Bytes :=
  Little.write 4 wideEndMark ++ Little.write 8 44 ++ Little.write 2 version ++
    Little.write 2 version ++ Little.write 4 0 ++ Little.write 4 0 ++ Little.write 8 d.count ++
    Little.write 8 d.count ++ Little.write 8 d.size ++ Little.write 8 d.offset

/-- The locator of the wide record, which is right behind the directory. -/
def locator (d : Directory) : Bytes :=
  Little.write 4 locatorMark ++ Little.write 4 0 ++ Little.write 8 (d.offset + d.size) ++
    Little.write 4 1

/-- The record at the end; what it cannot say is the largest number that it can. -/
def endRecord (d : Directory) : Bytes :=
  Little.write 4 endMark ++ Little.write 2 0 ++ Little.write 2 0 ++
    Little.write 2 (min d.count most16) ++ Little.write 2 (min d.count most16) ++
    Little.write 4 (min d.size most32) ++ Little.write 4 (min d.offset most32) ++ Little.write 2 0

/-- What is behind a directory. -/
def ending (d : Directory) : Bytes :=
  (if d.isWide then d.wideRecord ++ d.locator else []) ++ d.endRecord

end Directory

/-! ## Archives -/

/-- The members, and the directory, of an archive part that begins at `offset`. -/
def parts (codec : Codec) (stamp : Stamp) : Nat → List Member → Bytes × Bytes
  | _, [] => ([], [])
  | offset, m :: ms =>
    let packed := codec.pack m.content
    let header := Header.ofMember stamp offset m packed
    let body := header.local ++ packed
    let (bodies, records) := parts codec stamp (offset + body.length) ms
    (body ++ bodies, header.record ++ records)

/-- The archive of some members, in order, all with one stamp, packed with a codec. -/
def writeWith (codec : Codec) (stamp : Stamp) (members : List Member) : Bytes :=
  let (bodies, records) := parts codec stamp 0 members
  bodies ++ records ++ Directory.ending ⟨members.length, records.length, bodies.length⟩

end Wheelwright.Zip
