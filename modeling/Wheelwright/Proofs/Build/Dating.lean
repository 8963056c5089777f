import Wheelwright.Proofs.Archive.RoundTrip
import Wheelwright.Proofs.Build.Delivery
/-!
# When the members of a wheel are from

The time that is set for a build is written into the headers of every member, in two words of 16
bits. `Zip.Dated` says of the bytes of an archive that every local header and every directory record
in it has two words in the places for them. The main statement is `dated_members`: so it is of every
archive that is packed, and the words stand for the point in time that was set, at the even second,
if it is in the years that can be stamped, and otherwise for the first moment of them, which the
build warns of. Later points in time never give earlier words.
-/

namespace Wheelwright

/-! ## Words in order -/

/-- The words of stamps are in the order of the stamps, the date first. -/
theorem Stamp.IsValid.words_le {s t : Stamp} (hs : s.IsValid) (ht : t.IsValid)
    (h : ¬t.IsBefore s) :
    s.dosDate < t.dosDate ∨ s.dosDate = t.dosDate ∧ s.dosTime ≤ t.dosTime := by
  have hday := hs.day_le
  have hday' := ht.day_le
  obtain ⟨hy, -, -, hm, -, -, -, hmin, hsec⟩ := hs
  obtain ⟨hy', -, -, hm', -, -, -, hmin', hsec'⟩ := ht
  unfold IsBefore at h
  unfold dosDate dosTime
  omega

/-- The build warns of a point in time exactly if it cannot be stamped. -/
theorem Build.stampEvents_some (e : Int) : stampEvents (some e) =
    if Stamp.firstEpoch ≤ e ∧ e ≤ Stamp.lastEpoch then [] else [.epochClamped e] := by
  unfold stampEvents
  by_cases he : Stamp.firstEpoch ≤ e ∧ e ≤ Stamp.lastEpoch
  · obtain ⟨s, hs⟩ := Stamp.exists_ofEpoch? he.1 he.2
    simp [he, hs]
  · simp [he, Stamp.ofEpoch?_eq_none_iff.2 he]

/-! ## Dated archives -/

namespace Zip

/-- The word at a place is this number. -/
def HasWord (bytes : Bytes) (place n : Nat) : Prop :=
  ∃ rest, Little.read 2 (bytes.drop place) = some (n, rest)

/-- The bytes are a member as it stands in an archive, with these words for its date and time: a
local header of 30 bytes, the name, and the packed content. -/
def IsDatedBody (codec : Codec) (date time : Nat) (m : Member) (body : Bytes) : Prop :=
  ∃ header, body = header ++ (Utf8.encode m.path ++ codec.pack m.content) ∧
    header.length = 30 ∧ header.take 4 = [0x50, 0x4B, 0x03, 0x04] ∧
    HasWord header 10 time ∧ HasWord header 12 date

/-- The bytes are the directory record of a member, with these words for its date and time: 46 bytes
and the name, and what is said of large archives. -/
def IsDatedRecord (date time : Nat) (m : Member) (record : Bytes) : Prop :=
  ∃ header extra, record = header ++ (Utf8.encode m.path ++ extra) ∧
    header.length = 46 ∧ header.take 4 = [0x50, 0x4B, 0x01, 0x02] ∧
    HasWord header 12 time ∧ HasWord header 14 date

/-- The archive has the members in order, and then their directory records in order, all with these
words for the date and the time. -/
def Dated (codec : Codec) (archive : Bytes) (members : List Member) (date time : Nat) : Prop :=
  ∃ bodies records ending, archive = bodies.flatten ++ (records.flatten ++ ending) ∧
    members.Forall₂ (IsDatedBody codec date time) bodies ∧
    members.Forall₂ (IsDatedRecord date time) records

/-- The word behind the first bytes stands at the place that they are long. -/
theorem hasWord_append {front : Bytes} {place n : Nat} (hf : front.length = place)
    (hn : n < 65536) (rest : Bytes) : HasWord (front ++ (Little.write 2 n ++ rest)) place n :=
  ⟨rest, by rw [List.drop_left' hf, Little.read_write 2 n rest hn]⟩

/-- Among the fields that headers share, the time is the fourth and the date the fifth. -/
theorem hasWord_shared {h : Header} (hd : h.date < 65536) (ht : h.time < 65536) {front : Bytes}
    {place : Nat} (hf : front.length = place) (rest : Bytes) :
    HasWord (front ++ (h.shared ++ rest)) (place + 6) h.time ∧
      HasWord (front ++ (h.shared ++ rest)) (place + 8) h.date := by
  have htime : (front ++ Little.write 2 (versionNeeded h.offset) ++ Little.write 2 h.flags ++
      Little.write 2 deflated).length = place + 6 := by
    simp [hf]
  have hdate : (front ++ Little.write 2 (versionNeeded h.offset) ++ Little.write 2 h.flags ++
      Little.write 2 deflated ++ Little.write 2 h.time).length = place + 8 := by
    simp [hf]
  simp only [Header.shared, List.append_assoc] at htime hdate ⊢
  constructor
  · simpa only [List.append_assoc] using hasWord_append htime ht _
  · simpa only [List.append_assoc] using hasWord_append hdate hd _

variable {stamp : Stamp}

theorem isDatedBody_body (hs : stamp.IsValid) (codec : Codec) (offset : Nat) (m : Member) :
    IsDatedBody codec stamp.dosDate stamp.dosTime m (body codec stamp offset m) := by
  obtain ⟨htime, hdate⟩ := hasWord_shared (h := header codec stamp offset m) hs.dosDate_lt
    hs.dosTime_lt (Little.length_write 4 localMark) (Little.write 2 0)
  refine ⟨_, ?_, ?_, ?_, htime, hdate⟩
  · simp only [body, Header.local, List.append_assoc]
    rfl
  · simp [Header.shared]
  · rfl

theorem isDatedRecord_record (hs : stamp.IsValid) (codec : Codec) (offset : Nat) (m : Member) :
    IsDatedRecord stamp.dosDate stamp.dosTime m (header codec stamp offset m).record := by
  have hf : (Little.write 4 directoryMark ++ Little.write 2 versionMadeBy).length = 6 := rfl
  obtain ⟨htime, hdate⟩ := hasWord_shared (h := header codec stamp offset m) hs.dosDate_lt
    hs.dosTime_lt hf (Little.write 2 (header codec stamp offset m).extra.length ++
      Little.write 2 0 ++ Little.write 2 0 ++ Little.write 2 0 ++
      Little.write 4 (memberMode * 65536) ++
      Little.write 4 (min (header codec stamp offset m).offset most32))
  refine ⟨_, (header codec stamp offset m).extra, ?_, ?_, ?_, htime, hdate⟩
  · simp only [Header.record, List.append_assoc]
    rfl
  · simp [Header.shared]
  · rfl

/-- Every member of an archive part is dated, and so is every record of its directory. -/
theorem exists_dated_parts (hs : stamp.IsValid) (codec : Codec) (offset : Nat)
    (members : List Member) :
    ∃ bodies records, parts codec stamp offset members = (bodies.flatten, records.flatten) ∧
      members.Forall₂ (IsDatedBody codec stamp.dosDate stamp.dosTime) bodies ∧
      members.Forall₂ (IsDatedRecord stamp.dosDate stamp.dosTime) records := by
  induction members generalizing offset with
  | nil => exact ⟨[], [], rfl, .nil, .nil⟩
  | cons m members ih =>
    obtain ⟨bodies, records, hp, hb, hr⟩ := ih (offset + (body codec stamp offset m).length)
    refine ⟨body codec stamp offset m :: bodies, (header codec stamp offset m).record :: records,
      ?_, .cons (isDatedBody_body hs codec offset m) hb,
      .cons (isDatedRecord_record hs codec offset m) hr⟩
    rw [parts_cons, hp, List.flatten_cons, List.flatten_cons]

/-- An archive is dated with the words of its stamp. -/
theorem dated_writeWith (hs : stamp.IsValid) (codec : Codec) (members : List Member) :
    Dated codec (writeWith codec stamp members) members stamp.dosDate stamp.dosTime := by
  obtain ⟨bodies, records, hp, hb, hr⟩ := exists_dated_parts hs codec 0 members
  refine ⟨bodies, records, (directory codec stamp members).ending, ?_, hb, hr⟩
  rw [writeWith_eq, bulk, hp, List.append_assoc]

/-- A reader of an archive that is not too large finds the stamp in every entry. -/
theorem exists_readWith?_writeWith (hs : stamp.IsValid) {codec : Codec} {members : List Member}
    (hk : members.length < 65535) (hn : ∀ m ∈ members, (Utf8.encode m.path).length < 65536)
    (hc : ∀ m ∈ members, m.content.length ≤ largestMember)
    (ha : (writeWith codec stamp members).length < 4294967296) :
    ∃ entries, readWith? codec (writeWith codec stamp members) = some entries ∧
      entries.map Entry.name = members.map Member.path ∧
      ∀ entry ∈ entries, entry.stamp = Stamp.ofDos stamp.dosDate stamp.dosTime ∧
        entry.localAgrees = true := by
  refine ⟨_, readWith?_writeWith hs hk hn (fun m hm => Nat.lt_succ_of_le (hc m hm)) ha, ?_, ?_⟩
  · rw [List.map_map]
    rfl
  · intro entry he
    obtain ⟨m, -, rfl⟩ := List.mem_map.1 he
    exact ⟨(Stamp.ofDos_dosDate_dosTime hs).symm, rfl⟩

end Zip

/-! ## Archives that are packed -/

/-- For every point in time there are two words, for the date and for the time of day. Every archive
that is packed for it has them in every local header and in every directory record, and a reader
finds them in every entry. If the point in time is in the years 1980 to 2107 they stand for it, at
the even second, and give its date and time back but for an odd second; later points in time have no
earlier words. Otherwise they stand for the first moment of these years, and the build warns. -/
theorem dated_members : ∃ date time : Int → Nat,
    (∀ e, date e < 65536 ∧ time e < 65536 ∧ (Stamp.ofDos (date e) (time e)).IsValid) ∧
    (∀ e, Stamp.firstEpoch ≤ e ∧ e ≤ Stamp.lastEpoch →
      Build.stampEvents (some e) = [] ∧
      (Stamp.ofDos (date e) (time e)).epoch = e / 2 * 2 ∧
      (Stamp.ofSetting (some e)).IsValid ∧ (Stamp.ofSetting (some e)).epoch = e ∧
      Stamp.ofDos (date e) (time e) = (Stamp.ofSetting (some e)).atEvenSecond ∧
      ∀ e', e ≤ e' → e' ≤ Stamp.lastEpoch →
        date e < date e' ∨ date e = date e' ∧ time e ≤ time e') ∧
    (∀ e, ¬(Stamp.firstEpoch ≤ e ∧ e ≤ Stamp.lastEpoch) →
      Build.stampEvents (some e) = [.epochClamped e] ∧
      Stamp.ofDos (date e) (time e) = ⟨1980, 1, 1, 0, 0, 0⟩) ∧
    ∀ (e : Int) (codec : Zip.Codec) (plan : Plan) (w : World),
      ((∃ archive w', (Build.packWith (m := Simulation) codec plan (some e)).run.run w =
          (.ok archive, w')) ↔
        ∀ m ∈ plan.members, m.content.length < 4294967296 ∧
          (codec.pack m.content).length < 4294967296) ∧
      ∀ archive w', (Build.packWith (m := Simulation) codec plan (some e)).run.run w =
          (.ok archive, w') →
        Zip.Dated codec archive plan.members (date e) (time e) ∧
        (plan.members.length < 65535 → (∀ m ∈ plan.members, (Utf8.encode m.path).length < 65536) →
          archive.length < 4294967296 →
          ∃ entries, Zip.readWith? codec archive = some entries ∧
            entries.map Zip.Entry.name = plan.members.map Member.path ∧
            ∀ entry ∈ entries, entry.stamp = Stamp.ofDos (date e) (time e) ∧
              entry.localAgrees = true) := by
  have hwords : ∀ e : Int, Stamp.ofDos (Stamp.ofSetting (some e)).dosDate
      (Stamp.ofSetting (some e)).dosTime = (Stamp.ofSetting (some e)).atEvenSecond :=
    fun e => Stamp.ofDos_dosDate_dosTime (Stamp.isValid_ofSetting (some e))
  refine ⟨fun e => (Stamp.ofSetting (some e)).dosDate, fun e => (Stamp.ofSetting (some e)).dosTime,
    fun e => ?_, fun e he => ?_, fun e he => ?_, fun e codec plan w => ⟨?_, ?_⟩⟩
  · have hvalid := Stamp.isValid_ofSetting (some e)
    exact ⟨hvalid.dosDate_lt, hvalid.dosTime_lt, hwords e ▸ hvalid.atEvenSecond⟩
  · have hwarn := Build.stampEvents_some e
    rw [if_pos he] at hwarn
    obtain ⟨hvalid, hepoch⟩ := Stamp.ofSetting_spec he.1 he.2
    refine ⟨hwarn, ?_, hvalid, hepoch, hwords e, fun e' hle hlast => ?_⟩
    · rw [hwords, Stamp.epoch_atEvenSecond, hepoch]
    · obtain ⟨hvalid', hepoch'⟩ := Stamp.ofSetting_spec (Int.le_trans he.1 hle) hlast
      apply hvalid.words_le hvalid'
      rwa [hvalid'.isBefore_iff hvalid, hepoch, hepoch', Int.not_lt]
  · have hwarn := Build.stampEvents_some e
    rw [if_neg he] at hwarn
    refine ⟨hwarn, ?_⟩
    rw [hwords, Stamp.ofSetting_of_not_bounds he]
    rfl
  · have hbound : Zip.largestMember + 1 = 4294967296 := rfl
    simp only [← hbound, Nat.lt_succ_iff]
    constructor
    · rintro ⟨archive, hr⟩
      exact (Build.packWith_eq_ok_iff.1 hr).1
    · intro hm
      exact ⟨_, Build.packWith_eq_ok_iff.2 ⟨hm, rfl⟩⟩
  · intro archive w' hr
    obtain ⟨hm, rfl⟩ := Build.packWith_eq_ok_iff.1 ⟨w', hr⟩
    have hvalid := Stamp.isValid_ofSetting (some e)
    exact ⟨Zip.dated_writeWith hvalid codec plan.members, fun hk hn ha =>
      Zip.exists_readWith?_writeWith hvalid hk hn (fun m hmem => (hm m hmem).1) ha⟩

/-- The year 2100 has no leap day. -/
example : Stamp.ofSetting (some 4107542399) = ⟨2100, 2, 28, 23, 59, 59⟩ ∧
    Stamp.ofSetting (some 4107542400) = ⟨2100, 3, 1, 0, 0, 0⟩ := by decide +kernel

end Wheelwright
