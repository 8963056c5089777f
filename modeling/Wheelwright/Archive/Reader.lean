import Wheelwright.Archive.Zip
/-!
# Reading archives

A reader finds the record at the end, walks the directory that it tells of, which has to be as large
and to have as many records as is said there, and follows each directory record to its local header
and packed content. A number of which every bit is set may be said elsewhere, in 64 bits: those of
the record at the end in the wide record that a locator points to, those of a directory record in
its wide field. Where there is no such thing the number stands for itself.
-/

namespace Wheelwright.Zip

/-- A member as an archive describes it. -/
structure Entry where
  name : String
  /-- The system that the mode is to be read for; Unix is 3. -/
  hostSystem : Nat
  utf8Flag : Bool
  method : Nat
  stamp : Stamp
  crc32 : Nat
  size : Nat
  mode : Nat
  /-- Whether the local header repeats the shared fields of the directory record, and the name. -/
  localAgrees : Bool
  content : Bytes
  deriving DecidableEq, Repr

/-- The first bytes, if there are so many, and those after them. -/
def cut (n : Nat) (bs : Bytes) : Option (Bytes × Bytes) :=
  if n ≤ bs.length then some (bs.take n, bs.drop n) else none

/-! ## The end -/

/-- What a record at the end says of the directory, if the bytes are one, with as long a comment as
it says. -/
def endFields? (bs : Bytes) : Option Directory := do
  let (mark, bs) ← Little.read 4 bs
  if mark ≠ endMark then none
  let (_, bs) ← cut 6 bs
  let (count, bs) ← Little.read 2 bs
  let (size, bs) ← Little.read 4 bs
  let (offset, bs) ← Little.read 4 bs
  let (comment, bs) ← Little.read 2 bs
  if bs.length = comment then some ⟨count, size, offset⟩ else none

/-- The last place that has a record at the end, and what it says of the directory. -/
def findEnd? (archive : Bytes) : Option (Nat × Directory) :=
  (List.range (min 65536 (archive.length - 21))).findSome? fun k =>
    (endFields? (archive.drop (archive.length - 22 - k))).map (archive.length - 22 - k, ·)

/-- Where the wide record is, if the bytes are a locator. -/
def locator? (bs : Bytes) : Option Nat := do
  let (mark, bs) ← Little.read 4 bs
  if mark ≠ locatorMark then none
  let (_, bs) ← cut 4 bs
  let (offset, bs) ← Little.read 8 bs
  if bs.length = 4 then some offset else none

/-- What a wide record says of the directory, if the bytes begin with one. -/
def wideRecord? (bs : Bytes) : Option Directory := do
  let (mark, bs) ← Little.read 4 bs
  if mark ≠ wideEndMark then none
  let (_, bs) ← cut 28 bs
  let (count, bs) ← Little.read 8 bs
  let (size, bs) ← Little.read 8 bs
  let (offset, _) ← Little.read 8 bs
  return ⟨count, size, offset⟩

/-- What the wide record says of the directory, if there is a locator in front of `place`. -/
def findWide? (archive : Bytes) (place : Nat) : Option Directory := do
  let (front, _) ← cut place archive
  let offset ← locator? (front.drop (front.length - 20))
  let (_, bs) ← cut offset archive
  wideRecord? bs

/-- Whether there is a number in the record at the end of which every bit is set. -/
def Directory.isFull (d : Directory) : Bool :=
  d.count = most16 || d.size = most32 || d.offset = most32

/-- What the end of an archive says of the directory. -/
def directory? (archive : Bytes) : Option Directory := do
  let (place, directory) ← findEnd? archive
  if directory.isFull then return (findWide? archive place).getD directory
  return directory

/-! ## Headers -/

/-- The fields that a local header and a directory record share, in order. -/
structure SharedFields where
  versionNeeded : Nat
  flags : Nat
  method : Nat
  time : Nat
  date : Nat
  crc32 : Nat
  packedSize : Nat
  size : Nat
  nameLength : Nat
  deriving DecidableEq, Repr

/-- The shared fields at the start of the bytes, and the bytes after them. -/
def sharedFields? (bs : Bytes) : Option (SharedFields × Bytes) := do
  let (versionNeeded, bs) ← Little.read 2 bs
  let (flags, bs) ← Little.read 2 bs
  let (method, bs) ← Little.read 2 bs
  let (time, bs) ← Little.read 2 bs
  let (date, bs) ← Little.read 2 bs
  let (crc32, bs) ← Little.read 4 bs
  let (packedSize, bs) ← Little.read 4 bs
  let (size, bs) ← Little.read 4 bs
  let (nameLength, bs) ← Little.read 2 bs
  return (⟨versionNeeded, flags, method, time, date, crc32, packedSize, size, nameLength⟩, bs)

/-- The shared fields and the name in a local header, and the content behind it, which is to have
`packedSize` bytes. -/
def localPart? (archive : Bytes) (offset packedSize : Nat) :
    Option (SharedFields × Bytes × Bytes) := do
  let (_, bs) ← cut offset archive
  let (mark, bs) ← Little.read 4 bs
  if mark ≠ localMark then none
  let (shared, bs) ← sharedFields? bs
  let (extraLength, bs) ← Little.read 2 bs
  let (name, bs) ← cut shared.nameLength bs
  let (_, bs) ← cut extraLength bs
  let (packed, _) ← cut packedSize bs
  return (shared, name, packed)

/-- The data of the first extra field with a mark, among so many. -/
def extraField? (mark : Nat) : Nat → Bytes → Option Bytes
  | 0, _ => none
  | fuel + 1, bs => do
    let (found, bs) ← Little.read 2 bs
    let (length, bs) ← Little.read 2 bs
    let (data, bs) ← cut length bs
    if found = mark then return data
    extraField? mark fuel bs

/-- A number, or the next of the wide field if every bit of it is set; and what is left of the
field. -/
def widen (n : Nat) (wide : Bytes) : Nat × Bytes :=
  if n = most32 then (Little.read 8 wide).getD (n, wide) else (n, wide)

/-- A record of the directory. -/
structure DirectoryRecord where
  madeBy : Nat
  shared : SharedFields
  attributes : Nat
  size : Nat
  packedSize : Nat
  offset : Nat
  name : Bytes
  deriving DecidableEq, Repr

/-- The directory record at the start of the bytes, and the bytes after it. -/
def directoryRecord? (bs : Bytes) : Option (DirectoryRecord × Bytes) := do
  let (mark, bs) ← Little.read 4 bs
  if mark ≠ directoryMark then none
  let (madeBy, bs) ← Little.read 2 bs
  let (shared, bs) ← sharedFields? bs
  let (extraLength, bs) ← Little.read 2 bs
  let (commentLength, bs) ← Little.read 2 bs
  let (_, bs) ← cut 4 bs
  let (attributes, bs) ← Little.read 4 bs
  let (offset, bs) ← Little.read 4 bs
  let (name, bs) ← cut shared.nameLength bs
  let (extra, bs) ← cut extraLength bs
  let (_, bs) ← cut commentLength bs
  -- a field takes a byte at least
  let wide := (extraField? wideMark extra.length extra).getD []
  let (size, wide) := widen shared.size wide
  let (packedSize, wide) := widen shared.packedSize wide
  let (offset, _) := widen offset wide
  return (⟨madeBy, shared, attributes, size, packedSize, offset, name⟩, bs)

/-- So many directory records, if these are all the bytes. -/
def directoryRecords? : Nat → Bytes → Option (List DirectoryRecord)
  | 0, bs => if bs = [] then some [] else none
  | count + 1, bs => do
    let (record, bs) ← directoryRecord? bs
    let records ← directoryRecords? count bs
    return record :: records

/-- The records of the directory of an archive, in order. -/
def records? (archive : Bytes) : Option (List DirectoryRecord) := do
  let directory ← directory? archive
  let (_, bs) ← cut directory.offset archive
  let (bs, _) ← cut directory.size bs
  directoryRecords? directory.count bs

/-! ## Members -/

/-- The member that a directory record describes, with the content behind its local header. -/
def member? (codec : Codec) (archive : Bytes) (r : DirectoryRecord) : Option Entry := do
  let name ← Utf8.decode? r.name
  let (localShared, localName, packed) ← localPart? archive r.offset r.packedSize
  let content ← if r.shared.method = deflated then codec.unpack packed else none
  return {
    name
    hostSystem := r.madeBy / 256
    utf8Flag := r.shared.flags / 2048 % 2 = 1
    method := r.shared.method
    stamp := .ofDos r.shared.date r.shared.time
    crc32 := r.shared.crc32
    size := r.size
    mode := r.attributes / 65536
    localAgrees := localShared = r.shared ∧ localName = r.name
    content }

/-- The members of an archive packed with a codec, in the order of its directory. -/
def readWith? (codec : Codec) (archive : Bytes) : Option (List Entry) := do
  let records ← records? archive
  records.mapM (member? codec archive)

/-- The members of an archive in the order of its directory. -/
def read? (archive : Bytes) : Option (List Entry) := readWith? stored archive

/-- The names of an archive's members in the order of its directory. -/
def names? (archive : Bytes) : Option (List String) := do
  let records ← records? archive
  records.mapM fun r => Utf8.decode? r.name

/-- The member of an archive with a name; the first, if there are several. -/
def find? (codec : Codec) (archive : Bytes) (name : String) : Option Entry := do
  let records ← records? archive
  let record ← records.find? (·.name = Utf8.encode name)
  member? codec archive record

end Wheelwright.Zip
