import Mathlib.Data.List.Nodup
import Wheelwright.Archive.Reader
import Wheelwright.Proofs.Archive.Stamp
import Wheelwright.Proofs.Digest.Cyclic
/-!
# Archives read back

What is written into an archive is found in it again. Each record of the format is read back by
itself, with whatever bytes follow it: a local header with its content (`localPart?_local`), a
directory record (`directoryRecord?_record`), and the end of an archive, however far on the
directory is (`directory?_ending`). Every directory record points at the place where its member
begins (`exists_of_mem_headers`), so that a member is found through it, wherever it stands. The main
statements are

* `records?_writeWith` — the directory of an archive of any size is read back;
* `readWith?_writeWith` — an archive that 32 bits can measure is read back whole, whatever codec
  packed it and whatever its contents are.
-/

namespace Wheelwright.Zip

/-! ## Pieces of bytes -/

theorem cut_append (a b : Bytes) : cut a.length (a ++ b) = some (a, b) := by
  simp [cut]

theorem cut_append_of_length {a : Bytes} {n : Nat} (h : a.length = n) (b : Bytes) :
    cut n (a ++ b) = some (a, b) := h ▸ cut_append a b

theorem cut_zero (bs : Bytes) : cut 0 bs = some ([], bs) := cut_append [] bs

theorem eq_append_of_cut {n : Nat} {bs a b : Bytes} (h : cut n bs = some (a, b)) :
    bs = a ++ b ∧ a.length = n := by
  unfold cut at h
  split at h
  · next hn =>
    cases h
    exact ⟨(List.take_append_drop n bs).symm, List.length_take_of_le hn⟩
  · cases h

/-! ## The end -/

namespace Directory

variable {d : Directory}

/-- What the record at the end says. -/
def shown (d : Directory) : Directory where
  count := min d.count most16
  size := min d.size most32
  offset := min d.offset most32

theorem length_endRecord (d : Directory) : d.endRecord.length = 22 := by
  simp [endRecord]

theorem length_locator (d : Directory) : d.locator.length = 20 := by
  simp [locator]

theorem length_ending_le (d : Directory) : d.ending.length ≤ 98 := by
  have hw : d.wideRecord.length = 56 := by simp [wideRecord]
  have hl := d.length_locator
  have he := d.length_endRecord
  unfold ending
  split
  · simp only [List.length_append]
    omega
  · simp only [List.length_append, List.length_nil]
    omega

/-- What the record at the end can say is what it says. -/
theorem shown_eq (h : d.isWide = false) : d.shown = d := by
  obtain ⟨count, size, offset⟩ := d
  simp only [isWide, Bool.or_eq_false_iff, decide_eq_false_iff_not] at h
  simp only [shown, mk.injEq]
  omega

/-- What the record at the end cannot say shows in it. -/
theorem isFull_shown (h : d.isWide = true) : d.shown.isFull = true := by
  simp only [isWide, Bool.or_eq_true, decide_eq_true_eq] at h
  simp only [isFull, Bool.or_eq_true, decide_eq_true_eq]
  simp only [shown]
  omega

theorem endFields?_endRecord (d : Directory) : endFields? d.endRecord = some d.shown := by
  have hm : endMark < Little.bound 4 := by decide
  have hz : 0 < Little.bound 2 := by decide
  have hc : min d.count most16 < Little.bound 2 :=
    Nat.lt_of_le_of_lt (Nat.min_le_right _ _) (by decide)
  have hs : min d.size most32 < Little.bound 4 :=
    Nat.lt_of_le_of_lt (Nat.min_le_right _ _) (by decide)
  have ho : min d.offset most32 < Little.bound 4 :=
    Nat.lt_of_le_of_lt (Nat.min_le_right _ _) (by decide)
  have hcut := cut_append_of_length (n := 6)
    (a := Little.write 2 0 ++ (Little.write 2 0 ++ Little.write 2 (min d.count most16))) (by simp)
  simp only [List.append_assoc] at hcut
  have hend := Little.read_write 2 0 [] hz
  rw [List.append_nil] at hend
  simp [endFields?, endRecord, shown, hm, hcut, hc, hs, ho, hend]

/-- A reader begins to look where the record at the end stands, so no other place is looked at. -/
theorem findEnd?_append (front : Bytes) (d : Directory) :
    findEnd? (front ++ d.endRecord) = some (front.length, d.shown) := by
  have hl := d.length_endRecord
  have hr : ∃ n, min 65536 ((front ++ d.endRecord).length - 21) = n + 1 := by
    rw [List.length_append, hl]
    exact ⟨min 65536 (front.length + 1) - 1, by omega⟩
  obtain ⟨n, hn⟩ := hr
  have hp : (front ++ d.endRecord).length - 22 - 0 = front.length := by
    rw [List.length_append, hl, Nat.add_sub_cancel, Nat.sub_zero]
  rw [findEnd?, hn, List.range_succ_eq_map, List.findSome?_cons, hp, List.drop_left,
    endFields?_endRecord, Option.map_some]

theorem locator?_locator (h : d.offset + d.size < 18446744073709551616) :
    locator? d.locator = some (d.offset + d.size) := by
  have hm : locatorMark < Little.bound 4 := by decide
  have ho : d.offset + d.size < Little.bound 8 := h
  have hcut := cut_append_of_length (a := Little.write 4 0) (Little.length_write 4 0)
  simp [locator?, locator, hm, ho, hcut]

theorem wideRecord?_wideRecord (hc : d.count < 18446744073709551616)
    (h : d.offset + d.size < 18446744073709551616) (rest : Bytes) :
    wideRecord? (d.wideRecord ++ rest) = some d := by
  have hm : wideEndMark < Little.bound 4 := by decide
  have hc : d.count < Little.bound 8 := hc
  have hs : d.size < Little.bound 8 := Nat.lt_of_le_of_lt (Nat.le_add_left _ _) h
  have ho : d.offset < Little.bound 8 := Nat.lt_of_le_of_lt (Nat.le_add_right _ _) h
  have hcut := cut_append_of_length (n := 28)
    (a := Little.write 8 44 ++ (Little.write 2 version ++ (Little.write 2 version ++
      (Little.write 4 0 ++ (Little.write 4 0 ++ Little.write 8 d.count))))) (by simp)
  simp only [List.append_assoc] at hcut
  simp [wideRecord?, wideRecord, hm, hcut, hc, hs, ho]

/-- The wide record is found in front of its locator. -/
theorem findWide?_append {front : Bytes} (hf : front.length = d.offset + d.size)
    (hc : d.count < 18446744073709551616) (h : d.offset + d.size < 18446744073709551616)
    (rest : Bytes) :
    findWide? ((front ++ (d.wideRecord ++ d.locator)) ++ rest)
      (front ++ (d.wideRecord ++ d.locator)).length = some d := by
  have hd : (front ++ (d.wideRecord ++ d.locator)).drop
      ((front ++ (d.wideRecord ++ d.locator)).length - 20) = d.locator := by
    rw [← List.append_assoc, List.length_append, length_locator, Nat.add_sub_cancel,
      List.drop_left]
  rw [findWide?, cut_append]
  simp only [Option.bind_eq_bind, Option.bind_some, hd, locator?_locator h, ← hf,
    List.append_assoc, cut_append, wideRecord?_wideRecord hc h]

/-- The end of an archive says of the directory what it was written for, unless the record at the
end has a number of which every bit is set and the directory ends like a locator. -/
theorem directory?_ending {front : Bytes} (hf : front.length = d.offset + d.size)
    (hc : d.count < 18446744073709551616) (h : d.offset + d.size < 18446744073709551616)
    (hl : d.isWide = false → d.isFull = true →
      locator? (front.drop (front.length - 20)) = none) :
    directory? (front ++ d.ending) = some d := by
  unfold ending
  cases hw : d.isWide with
  | true =>
    rw [if_pos rfl, ← List.append_assoc, directory?, findEnd?_append]
    simp only [Option.bind_eq_bind, Option.bind_some, isFull_shown hw, if_true,
      findWide?_append hf hc h]
    rfl
  | false =>
    rw [if_neg Bool.false_ne_true, List.nil_append, directory?, findEnd?_append, shown_eq hw]
    simp only [Option.bind_eq_bind, Option.bind_some]
    split
    · next hfull =>
      rw [findWide?, cut_append]
      simp [hl hw hfull]
    · rfl

end Directory

/-- A locator begins with its mark and has sixteen bytes more. -/
theorem exists_of_locator? {bs : Bytes} {offset : Nat} (h : locator? bs = some offset) :
    ∃ rest, bs = Little.write 4 locatorMark ++ rest ∧ rest.length = 16 := by
  unfold locator? at h
  cases hm : Little.read 4 bs with
  | none => simp [hm] at h
  | some found =>
    obtain ⟨mark, bs₁⟩ := found
    have hbs := Little.eq_append_of_read hm
    by_cases he : mark = locatorMark
    · subst he
      cases hc : cut 4 bs₁ with
      | none => simp [hm, hc] at h
      | some found =>
        obtain ⟨disk, bs₂⟩ := found
        obtain ⟨rfl, hdisk⟩ := eq_append_of_cut hc
        cases hr : Little.read 8 bs₂ with
        | none => simp [hm, hc, hr] at h
        | some found =>
          obtain ⟨place, bs₃⟩ := found
          obtain rfl := Little.eq_append_of_read hr
          have hl : bs₃.length = 4 := by
            by_contra hl
            simp [hm, hc, hr, hl] at h
          refine ⟨_, hbs, ?_⟩
          rw [List.length_append, List.length_append, Little.length_write, hdisk, hl]
    · simp [hm, he] at h

/-- What ends in seventeen bytes of which the first cannot be the last of the mark does not end like
a locator. -/
theorem locator?_eq_none {bs tail : Bytes} {b : UInt8} (hs : b :: tail <:+ bs)
    (hl : tail.length = 16) (hb : b ≠ 7) : locator? (bs.drop (bs.length - 20)) = none := by
  cases h : locator? (bs.drop (bs.length - 20)) with
  | none => rfl
  | some offset =>
    obtain ⟨rest, hr, hlen⟩ := exists_of_locator? h
    obtain ⟨front, hf⟩ := hs
    have he : (bs.take (bs.length - 20) ++ Little.write 4 locatorMark) ++ rest =
        (front ++ [b]) ++ tail := by
      rw [List.append_assoc, ← hr, List.take_append_drop, List.append_assoc, ← hf]
      rfl
    have hlast := congrArg List.getLast? (List.append_inj_left' he (hlen.trans hl.symm))
    rw [List.getLast?_append, List.getLast?_concat] at hlast
    exact absurd (Option.some.inj hlast).symm hb

/-! ## Headers -/

namespace Header

variable {h : Header}

/-- Every field of a header fits into its bytes. -/
structure Fits (h : Header) : Prop where
  offset : h.offset < 18446744073709551616
  name : h.name.length < 65536
  flags : h.flags < 65536
  date : h.date < 65536
  time : h.time < 65536
  crc32 : h.crc32 < 4294967296
  packedSize : h.packedSize < 4294967296
  size : h.size < 4294967296

/-- The sizes of a member are not to be looked for in its wide field: it has none, or not every bit
of them is set. -/
def IsClear (h : Header) : Prop := h.offset ≤ most32 ∨ h.size < most32 ∧ h.packedSize < most32

/-- The shared fields as they are read. -/
def sharedFields (h : Header) : SharedFields where
  versionNeeded := versionNeeded h.offset
  flags := h.flags
  method := deflated
  time := h.time
  date := h.date
  crc32 := h.crc32
  packedSize := h.packedSize
  size := h.size
  nameLength := h.name.length

theorem sharedFields?_shared (hf : h.Fits) (rest : Bytes) :
    sharedFields? (h.shared ++ rest) = some (h.sharedFields, rest) := by
  obtain ⟨-, hname, hflags, hdate, htime, hcrc, hpacked, hsize⟩ := hf
  change _ < Little.bound 2 at hname hflags hdate htime
  change _ < Little.bound 4 at hcrc hpacked hsize
  have hv : versionNeeded h.offset < Little.bound 2 := by
    unfold versionNeeded
    split <;> decide
  have hm : deflated < Little.bound 2 := by decide
  simp [sharedFields?, shared, sharedFields, hv, hflags, hm, htime, hdate, hcrc, hpacked, hsize,
    hname]

/-- A local header with its content is found where it begins. -/
theorem localPart?_local (hf : h.Fits) (front packed back : Bytes) :
    localPart? (front ++ (h.local ++ (packed ++ back))) front.length packed.length =
      some (h.sharedFields, h.name, packed) := by
  have hm : localMark < Little.bound 4 := by decide
  have hz : 0 < Little.bound 2 := by decide
  simp [localPart?, Header.local, cut_append, hm, sharedFields?_shared hf, hz, sharedFields,
    cut_zero]

/-- The data of the wide field of a directory record, if there is one. -/
def wide (h : Header) : Bytes := if h.offset ≤ most32 then [] else Little.write 8 h.offset

theorem length_extra_le (h : Header) : h.extra.length ≤ 12 := by
  unfold extra
  split <;> simp

theorem extraField?_extra (h : Header) :
    (extraField? wideMark h.extra.length h.extra).getD [] = h.wide := by
  unfold extra wide
  split
  · rfl
  · have hl : (Little.write 2 wideMark ++ Little.write 2 8 ++ Little.write 8 h.offset).length =
        11 + 1 := by simp
    have hm := Little.read_write 2 wideMark (Little.write 2 8 ++ Little.write 8 h.offset)
      (by decide)
    have hn := Little.read_write 2 8 (Little.write 8 h.offset) (by decide)
    have hcut := cut_append_of_length (Little.length_write 8 h.offset) []
    rw [List.append_nil] at hcut
    rw [hl, extraField?, List.append_assoc, hm]
    simp only [Option.bind_eq_bind, Option.bind_some, hn, hcut, if_true]
    rfl

/-- What a directory record says of a member. -/
def directoryRecord (h : Header) : DirectoryRecord where
  madeBy := versionMadeBy
  shared := h.sharedFields
  attributes := memberMode * 65536
  size := (widen h.size h.wide).1
  packedSize := (widen h.packedSize (widen h.size h.wide).2).1
  offset := (widen (min h.offset most32) (widen h.packedSize (widen h.size h.wide).2).2).1
  name := h.name

theorem directoryRecord?_record (hf : h.Fits) (rest : Bytes) :
    directoryRecord? (h.record ++ rest) = some (h.directoryRecord, rest) := by
  have hm : directoryMark < Little.bound 4 := by decide
  have hv : versionMadeBy < Little.bound 2 := by decide
  have hz : 0 < Little.bound 2 := by decide
  have ha : memberMode * 65536 < Little.bound 4 := by decide
  have he : h.extra.length < Little.bound 2 := Nat.lt_of_le_of_lt h.length_extra_le (by decide)
  have ho : min h.offset most32 < Little.bound 4 :=
    Nat.lt_of_le_of_lt (Nat.min_le_right _ _) (by decide)
  have hcut := cut_append_of_length (n := 4)
    (a := Little.write 2 0 ++ Little.write 2 0) (by simp)
  simp only [List.append_assoc] at hcut
  have hn : h.sharedFields.nameLength = h.name.length := rfl
  simp [directoryRecord?, record, directoryRecord, hm, hv, sharedFields?_shared hf, he, hz, hcut,
    ha, ho, cut_append, hn, cut_zero, extraField?_extra]
  exact ⟨rfl, rfl, rfl⟩

theorem widen_of_lt {n : Nat} (hn : n < most32) (wide : Bytes) : widen n wide = (n, wide) :=
  if_neg (Nat.ne_of_lt hn)

theorem widen_nil (n : Nat) : widen n [] = (n, []) := by
  unfold widen
  split <;> rfl

/-- What is to be found in a wide field is found there. -/
theorem directoryRecord_eq (hf : h.Fits) (hc : h.IsClear) : h.directoryRecord.size = h.size ∧
    h.directoryRecord.packedSize = h.packedSize ∧ h.directoryRecord.offset = h.offset := by
  by_cases ho : h.offset ≤ most32
  · simp [directoryRecord, wide, ho, widen_nil]
  · have hr := Little.read_write 8 h.offset [] hf.offset
    obtain ⟨hs, hp⟩ := hc.resolve_left ho
    have hmin : min h.offset most32 = most32 := by omega
    rw [List.append_nil] at hr
    have hw : widen most32 (Little.write 8 h.offset) = (h.offset, []) := by
      rw [widen, if_pos rfl, hr, Option.getD_some]
    simp only [directoryRecord, wide, if_neg ho, widen_of_lt hs, widen_of_lt hp, hmin, hw, and_self]

end Header

/-- A directory of records that fit is read back. -/
theorem directoryRecords?_flatMap {hs : List Header} (hf : ∀ h ∈ hs, h.Fits) :
    directoryRecords? hs.length (hs.flatMap Header.record) =
      some (hs.map Header.directoryRecord) := by
  induction hs with
  | nil => rfl
  | cons h hs ih =>
    rw [List.flatMap_cons, List.length_cons, directoryRecords?,
      Header.directoryRecord?_record (hf h List.mem_cons_self)]
    simp only [Option.bind_eq_bind, Option.bind_some,
      ih fun x hx => hf x (List.mem_cons_of_mem h hx)]
    rfl

/-! ## Members -/

/-- A member as every archive with the stamp describes it. -/
noncomputable def Entry.ofMember (stamp : Stamp) (m : Member) : Entry where
  name := m.path
  hostSystem := 3
  utf8Flag := !m.path.toList.all (·.toNat < 128)
  method := 8
  stamp := stamp.atEvenSecond
  crc32 := Checksum.checkValue m.content
  size := m.content.length
  mode := 0o100755
  localAgrees := true
  content := m.content

variable {codec : Codec} {stamp : Stamp} {m : Member} {ms : List Member} {offset : Nat}

/-- The header of a member at `offset`. -/
def header (codec : Codec) (stamp : Stamp) (offset : Nat) (m : Member) : Header :=
  .ofMember stamp offset m (codec.pack m.content)

/-- A member as it stands in an archive: its local header and its packed content. -/
def body (codec : Codec) (stamp : Stamp) (offset : Nat) (m : Member) : Bytes :=
  (header codec stamp offset m).local ++ codec.pack m.content

theorem length_body (codec : Codec) (stamp : Stamp) (offset : Nat) (m : Member) :
    (body codec stamp offset m).length =
      30 + (Utf8.encode m.path).length + (codec.pack m.content).length := by
  have hn : (header codec stamp offset m).name = Utf8.encode m.path := rfl
  simp only [body, Header.local, Header.shared, List.length_append, Little.length_write, hn]

/-- What is asked of a member so that its header fits. -/
structure Storable (codec : Codec) (m : Member) : Prop where
  path : (Utf8.encode m.path).length < 65536
  content : m.content.length < 4294967296
  packed : (codec.pack m.content).length < 4294967296

theorem fits_header (hs : stamp.IsValid) (hm : Storable codec m)
    (ho : offset < 18446744073709551616) : (header codec stamp offset m).Fits where
  offset := ho
  name := hm.path
  flags := by
    unfold header Header.ofMember
    dsimp only
    split <;> decide
  date := hs.dosDate_lt
  time := hs.dosTime_lt
  crc32 := UInt32.toNat_lt _
  packedSize := hm.packed
  size := hm.content

/-- The flag says whether a name is more than ASCII. -/
theorem flag_header (codec : Codec) (stamp : Stamp) (offset : Nat) (m : Member) :
    decide ((header codec stamp offset m).flags / 2048 % 2 = 1) =
      !m.path.toList.all (·.toNat < 128) := by
  unfold header Header.ofMember
  cases m.path.toList.all (·.toNat < 128) with
  | true => simp
  | false => simp [utf8Flag]

/-- A member is found behind the local header that its directory record points to. -/
theorem member?_directoryRecord (hs : stamp.IsValid) {front : Bytes}
    (hf : (header codec stamp front.length m).Fits)
    (hc : (header codec stamp front.length m).IsClear) (back : Bytes) :
    member? codec (front ++ (body codec stamp front.length m ++ back))
      (header codec stamp front.length m).directoryRecord = some (Entry.ofMember stamp m) := by
  obtain ⟨hsize, hpacked, hoffset⟩ := Header.directoryRecord_eq hf hc
  have hl := Header.localPart?_local hf front (codec.pack m.content) back
  have hn : (header codec stamp front.length m).directoryRecord.name = Utf8.encode m.path := rfl
  have ho : (header codec stamp front.length m).offset = front.length := rfl
  have hp : (header codec stamp front.length m).packedSize = (codec.pack m.content).length := rfl
  have hd : Stamp.ofDos (header codec stamp front.length m).date
      (header codec stamp front.length m).time = stamp.atEvenSecond :=
    Stamp.ofDos_dosDate_dosTime hs
  simp only [member?, body, List.append_assoc, hn, hpacked, hoffset, ho, hp, hl,
    Utf8.decode?_encode, Option.bind_eq_bind, Option.bind_some, hsize]
  simp only [Header.directoryRecord, Header.sharedFields, if_true, codec.unpack_pack,
    Option.bind_some, hd]
  rw [Entry.ofMember, ← flag_header codec stamp front.length m, ← Checksum.toNat_crc32]
  simp [header, Header.ofMember]
  decide

/-! ## Archives -/

/-- The headers of the members of an archive part that begins at `offset`. -/
def headers (codec : Codec) (stamp : Stamp) : Nat → List Member → List Header
  | _, [] => []
  | offset, m :: ms =>
    header codec stamp offset m ::
      headers codec stamp (offset + (body codec stamp offset m).length) ms

theorem parts_cons (codec : Codec) (stamp : Stamp) (offset : Nat) (m : Member) (ms : List Member) :
    parts codec stamp offset (m :: ms) =
      (body codec stamp offset m ++
          (parts codec stamp (offset + (body codec stamp offset m).length) ms).1,
        (header codec stamp offset m).record ++
          (parts codec stamp (offset + (body codec stamp offset m).length) ms).2) := rfl

theorem length_headers (codec : Codec) (stamp : Stamp) (offset : Nat) (ms : List Member) :
    (headers codec stamp offset ms).length = ms.length := by
  induction ms generalizing offset with
  | nil => rfl
  | cons m ms ih => rw [headers, List.length_cons, List.length_cons, ih]

theorem parts_snd (codec : Codec) (stamp : Stamp) (offset : Nat) (ms : List Member) :
    (parts codec stamp offset ms).2 = (headers codec stamp offset ms).flatMap Header.record := by
  induction ms generalizing offset with
  | nil => rfl
  | cons m ms ih => rw [parts_cons, headers, List.flatMap_cons, ih]

theorem map_name_headers (codec : Codec) (stamp : Stamp) (offset : Nat) (ms : List Member) :
    (headers codec stamp offset ms).map Header.name = ms.map fun m => Utf8.encode m.path := by
  induction ms generalizing offset with
  | nil => rfl
  | cons m ms ih =>
    rw [headers, List.map_cons, List.map_cons, ih]
    rfl

/-- Every header is that of a member which begins where the header says. -/
theorem exists_of_mem_headers {h : Header} (front : Bytes)
    (hm : h ∈ headers codec stamp front.length ms) (back : Bytes) :
    ∃ m ∈ ms, ∃ before after,
      front ++ ((parts codec stamp front.length ms).1 ++ back) =
        before ++ (body codec stamp before.length m ++ after) ∧
      h = header codec stamp before.length m := by
  induction ms generalizing front with
  | nil => cases hm
  | cons m ms ih =>
    rw [parts_cons, List.append_assoc]
    rcases List.mem_cons.1 hm with rfl | hm
    · exact ⟨m, List.mem_cons_self, front, _, rfl, rfl⟩
    · rw [← List.length_append] at hm
      obtain ⟨x, hx, before, after, he, rfl⟩ := ih _ hm
      refine ⟨x, List.mem_cons_of_mem m hx, before, after, ?_, rfl⟩
      rw [← he, List.length_append, List.append_assoc]

/-- The members of an archive part are found through its directory, wherever the part stands. -/
theorem mapM_member?_headers (hs : stamp.IsValid) (hm : ∀ m ∈ ms, Storable codec m)
    (front : Bytes) (hb : front.length + (parts codec stamp front.length ms).1.length < 4294967296)
    (back : Bytes) :
    ((headers codec stamp front.length ms).map Header.directoryRecord).mapM
        (member? codec (front ++ ((parts codec stamp front.length ms).1 ++ back))) =
      some (ms.map (Entry.ofMember stamp)) := by
  induction ms generalizing front with
  | nil => rfl
  | cons m ms ih =>
    rw [parts_cons, List.length_append] at hb
    have hf : (header codec stamp front.length m).Fits :=
      fits_header hs (hm m List.mem_cons_self) (by omega)
    have hc : (header codec stamp front.length m).IsClear :=
      .inl (show front.length ≤ 4294967295 by omega)
    have hfirst := member?_directoryRecord hs hf hc
      ((parts codec stamp (front.length + (body codec stamp front.length m).length) ms).1 ++ back)
    -- the other members make up a part behind this one
    have hi := ih (fun x hx => hm x (List.mem_cons_of_mem m hx))
      (front ++ body codec stamp front.length m)
    rw [List.length_append, List.append_assoc, Nat.add_assoc] at hi
    rw [parts_cons, headers, List.map_cons, List.mapM_cons, List.append_assoc, hfirst]
    simp only [Option.bind_eq_bind, Option.bind_some, hi hb]
    rfl

/-- Everything in an archive but its end. -/
def bulk (codec : Codec) (stamp : Stamp) (ms : List Member) : Bytes :=
  (parts codec stamp 0 ms).1 ++ (parts codec stamp 0 ms).2

/-- What the end of an archive says of the directory. -/
def directory (codec : Codec) (stamp : Stamp) (ms : List Member) : Directory where
  count := ms.length
  size := (parts codec stamp 0 ms).2.length
  offset := (parts codec stamp 0 ms).1.length

theorem writeWith_eq (codec : Codec) (stamp : Stamp) (ms : List Member) :
    writeWith codec stamp ms = bulk codec stamp ms ++ (directory codec stamp ms).ending := rfl

theorem length_bulk (codec : Codec) (stamp : Stamp) (ms : List Member) :
    (bulk codec stamp ms).length =
      (directory codec stamp ms).offset + (directory codec stamp ms).size :=
  List.length_append

theorem parts_concat (codec : Codec) (stamp : Stamp) (offset : Nat) (ms : List Member)
    (m : Member) :
    (parts codec stamp offset (ms ++ [m])).1 = (parts codec stamp offset ms).1 ++
        body codec stamp (offset + (parts codec stamp offset ms).1.length) m ∧
      (parts codec stamp offset (ms ++ [m])).2 = (parts codec stamp offset ms).2 ++
        (header codec stamp (offset + (parts codec stamp offset ms).1.length) m).record := by
  induction ms generalizing offset with
  | nil => simp [parts_cons, parts]
  | cons x ms ih =>
    obtain ⟨hb, hr⟩ := ih (offset + (body codec stamp offset x).length)
    rw [List.cons_append, parts_cons, parts_cons, hb, hr, List.length_append, Nat.add_assoc]
    exact ⟨(List.append_assoc ..).symm, (List.append_assoc ..).symm⟩

/-- A directory that the record at the end can tell of ends in the name of the last member. -/
theorem isSuffix_bulk (h : (directory codec stamp (ms ++ [m])).isWide = false) :
    Utf8.encode m.path <:+ bulk codec stamp (ms ++ [m]) := by
  obtain ⟨hb, hr⟩ := parts_concat codec stamp 0 ms m
  have ho : 0 + (parts codec stamp 0 ms).1.length ≤ most32 := by
    simp only [Directory.isWide, directory, hb, List.length_append, Bool.or_eq_false_iff,
      decide_eq_false_iff_not] at h
    omega
  have he : (header codec stamp (0 + (parts codec stamp 0 ms).1.length) m).extra = [] := if_pos ho
  rw [bulk, hr, Header.record, he, List.append_nil, ← List.append_assoc, ← List.append_assoc]
  exact List.suffix_append _ _

/-- A member and its record take up little more than its packed content and twice its name. -/
theorem length_parts_le (hm : ∀ m ∈ ms, Storable codec m) (stamp : Stamp) (offset : Nat) :
    (parts codec stamp offset ms).1.length + (parts codec stamp offset ms).2.length ≤
      4295098453 * ms.length := by
  induction ms generalizing offset with
  | nil => exact Nat.zero_le _
  | cons m ms ih =>
    obtain ⟨hp, -, hc⟩ := hm m List.mem_cons_self
    have hi := ih (fun x hx => hm x (List.mem_cons_of_mem m hx))
      (offset + (body codec stamp offset m).length)
    have hb := length_body codec stamp offset m
    have he := (header codec stamp offset m).length_extra_le
    have hr : (header codec stamp offset m).record.length =
        46 + (Utf8.encode m.path).length + (header codec stamp offset m).extra.length := by
      have hn : (header codec stamp offset m).name = Utf8.encode m.path := rfl
      simp only [Header.record, Header.shared, List.length_append, Little.length_write, hn]
    rw [parts_cons, List.length_append, List.length_append, List.length_cons]
    omega

/-- However large its members are, an archive is measured by 64 bits. -/
theorem length_bulk_lt (hm : ∀ m ∈ ms, Storable codec m) (hk : ms.length < 65536) (stamp : Stamp) :
    (bulk codec stamp ms).length < 18446744073709551616 := by
  have h := length_parts_le hm stamp 0
  rw [bulk, List.length_append]
  omega

/-- The same of the whole archive. -/
theorem length_writeWith_lt (hm : ∀ m ∈ ms, Storable codec m) (hk : ms.length < 65536)
    (stamp : Stamp) : (writeWith codec stamp ms).length < 18446744073709551616 := by
  have h := length_parts_le hm stamp 0
  have he := (directory codec stamp ms).length_ending_le
  rw [writeWith_eq, bulk, List.length_append, List.length_append]
  omega

theorem fits_of_mem_headers (hs : stamp.IsValid) (hm : ∀ m ∈ ms, Storable codec m)
    (hk : ms.length < 65536) : ∀ h ∈ headers codec stamp 0 ms, h.Fits := by
  intro h hh
  obtain ⟨m, hmem, before, after, he, rfl⟩ := exists_of_mem_headers [] hh []
  have ha := length_bulk_lt hm hk stamp
  have hlen := congrArg List.length he
  simp only [bulk, List.length_append, List.length_nil] at hlen ha
  exact fits_header hs (hm m hmem) (by omega)

/-- The directory of an archive is read back, unless the record at its end has a number of which
every bit is set and the directory ends like a locator. -/
theorem records?_writeWith (hs : stamp.IsValid) (hm : ∀ m ∈ ms, Storable codec m)
    (hk : ms.length < 65536)
    (hl : (directory codec stamp ms).isWide = false → (directory codec stamp ms).isFull = true →
      locator? ((bulk codec stamp ms).drop ((bulk codec stamp ms).length - 20)) = none) :
    records? (writeWith codec stamp ms) =
      some ((headers codec stamp 0 ms).map Header.directoryRecord) := by
  have ha := length_bulk_lt hm hk stamp
  rw [length_bulk] at ha
  have hcount : (directory codec stamp ms).count < 18446744073709551616 :=
    Nat.lt_trans hk (by decide)
  have hd := Directory.directory?_ending (length_bulk codec stamp ms) hcount ha hl
  have hr := directoryRecords?_flatMap (fits_of_mem_headers hs hm hk)
  rw [length_headers, ← parts_snd] at hr
  have hcut := cut_append_of_length (n := (directory codec stamp ms).size)
    (a := (parts codec stamp 0 ms).2) rfl (directory codec stamp ms).ending
  have hfront := cut_append_of_length (n := (directory codec stamp ms).offset)
    (a := (parts codec stamp 0 ms).1) rfl
    ((parts codec stamp 0 ms).2 ++ (directory codec stamp ms).ending)
  rw [← List.append_assoc] at hfront
  rw [writeWith_eq, records?, hd]
  simp only [Option.bind_eq_bind, Option.bind_some, bulk, hfront, hcut]
  exact hr

/-! ## What is found in the directory -/

/-- A directory that is read back has the names of the members, in order. -/
theorem names?_of_records? {archive : Bytes}
    (hr : records? archive = some ((headers codec stamp offset ms).map Header.directoryRecord)) :
    names? archive = some (ms.map Member.path) := by
  rw [names?, hr]
  simp only [Option.bind_eq_bind, Option.bind_some]
  clear hr
  induction ms generalizing offset with
  | nil => rfl
  | cons m ms ih =>
    have hn : Utf8.decode? (header codec stamp offset m).directoryRecord.name = some m.path :=
      Utf8.decode?_encode m.path
    rw [headers, List.map_cons, List.mapM_cons, hn, List.map_cons]
    simp only [Option.bind_eq_bind, Option.bind_some, ih]
    rfl

/-- A member with a name of its own is found by its name, wherever it begins, if it is not as large
as 32 bits can say. -/
theorem find?_of_records? (hs : stamp.IsValid) (hm : ∀ m ∈ ms, Storable codec m)
    (hk : ms.length < 65536) (hn : (ms.map Member.path).Nodup) (hmem : m ∈ ms)
    (hc : m.content.length < most32) (hp : (codec.pack m.content).length < most32)
    (hr : records? (writeWith codec stamp ms) =
      some ((headers codec stamp 0 ms).map Header.directoryRecord)) :
    find? codec (writeWith codec stamp ms) m.path = some (Entry.ofMember stamp m) := by
  rw [find?, hr]
  simp only [Option.bind_eq_bind, Option.bind_some]
  cases hf : ((headers codec stamp 0 ms).map Header.directoryRecord).find?
      (·.name = Utf8.encode m.path) with
  | none =>
    have hname : Utf8.encode m.path ∈ (headers codec stamp 0 ms).map Header.name := by
      rw [map_name_headers]
      exact List.mem_map_of_mem hmem
    obtain ⟨h, hh, he⟩ := List.mem_map.1 hname
    exact absurd (decide_eq_true he) (List.find?_eq_none.1 hf _ (List.mem_map_of_mem hh))
  | some r =>
    obtain ⟨h, hh, rfl⟩ := List.mem_map.1 (List.mem_of_find?_eq_some hf)
    have hfits := fits_of_mem_headers hs hm hk h hh
    obtain ⟨x, hx, before, after, he, rfl⟩ := exists_of_mem_headers [] hh
      ((parts codec stamp 0 ms).2 ++ (directory codec stamp ms).ending)
    -- the record with the name is that of the member, since no other has its path
    have hfound := List.find?_some hf
    have hname : Utf8.encode x.path = Utf8.encode m.path := of_decide_eq_true hfound
    obtain rfl := List.inj_on_of_nodup_map hn hx hmem (Utf8.encode_injective hname)
    have hw : writeWith codec stamp ms =
        before ++ (body codec stamp before.length x ++ after) := by
      rw [← he, writeWith_eq, bulk, List.append_assoc]
      rfl
    rw [Option.bind_some, hw]
    exact member?_directoryRecord hs hfits (.inr ⟨hc, hp⟩) after

/-! ## What is found behind the directory -/

/-- A member is packed in front of the directory. -/
theorem length_pack_le (hm : m ∈ ms) (stamp : Stamp) (offset : Nat) :
    (codec.pack m.content).length ≤ (parts codec stamp offset ms).1.length := by
  induction ms generalizing offset with
  | nil => cases hm
  | cons x ms ih =>
    rw [parts_cons, List.length_append]
    rcases List.mem_cons.1 hm with rfl | hm
    · rw [length_body]
      omega
    · exact Nat.le_trans (ih hm _) (Nat.le_add_left _ _)

theorem length_pack_le_length_writeWith (hm : m ∈ ms) (stamp : Stamp) :
    (codec.pack m.content).length ≤ (writeWith codec stamp ms).length := by
  have h : (codec.pack m.content).length ≤ (parts codec stamp 0 ms).1.length :=
    length_pack_le hm stamp 0
  rw [writeWith_eq, bulk, List.length_append, List.length_append]
  omega

/-- An archive is read back with the codec that packed it. -/
theorem readWith?_writeWith (hs : stamp.IsValid) {ms : List Member}
    (hk : ms.length < 65535) (hn : ∀ m ∈ ms, (Utf8.encode m.path).length < 65536)
    (hc : ∀ m ∈ ms, m.content.length < 4294967296)
    (ha : (writeWith codec stamp ms).length < 4294967296) :
    readWith? codec (writeWith codec stamp ms) = some (ms.map (Entry.ofMember stamp)) := by
  have hfront : (directory codec stamp ms).offset + (directory codec stamp ms).size + 22 <
      4294967296 := by
    have he := (directory codec stamp ms).length_endRecord
    have hw := congrArg List.length (writeWith_eq codec stamp ms)
    rw [Directory.ending, List.length_append, List.length_append, length_bulk] at hw
    omega
  have hm : ∀ m ∈ ms, Storable codec m := by
    intro m hmem
    exact ⟨hn m hmem, hc m hmem, Nat.lt_of_le_of_lt (length_pack_le_length_writeWith hmem stamp) ha⟩
  have hfull : (directory codec stamp ms).isFull = false := by
    have hcount : (directory codec stamp ms).count = ms.length := rfl
    have h₁ : most16 = 65535 := rfl
    have h₂ : most32 = 4294967295 := rfl
    simp only [Directory.isFull, Bool.or_eq_false_iff, decide_eq_false_iff_not]
    omega
  have hr := records?_writeWith hs hm (by omega) fun _ hf => by
    rw [hfull] at hf
    cases hf
  have hb : ([] : Bytes).length + (parts codec stamp ([] : Bytes).length ms).1.length <
      4294967296 := by
    rw [List.length_nil, Nat.zero_add]
    exact Nat.lt_of_le_of_lt (Nat.le_add_right _ _)
      (Nat.lt_of_le_of_lt (Nat.le_add_right _ _) hfront)
  have hmem := mapM_member?_headers hs hm [] hb
    ((parts codec stamp 0 ms).2 ++ (directory codec stamp ms).ending)
  rw [readWith?, hr]
  simp only [Option.bind_eq_bind, Option.bind_some]
  rw [writeWith_eq, bulk, List.append_assoc]
  exact hmem

end Wheelwright.Zip
