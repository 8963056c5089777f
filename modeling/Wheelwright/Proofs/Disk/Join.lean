import Wheelwright.Proofs.Disk.Walk
import Wheelwright.Proofs.Text.Ascii
import Wheelwright.Proofs.Text.Utf8
/-!
# A name below a directory

Joining a name to a path is safe if the name has no slash: the joined path begins where the path
begins, goes along the same names, and ends with the one name more (`names_join`). Then the place
that it points to is directly in the directory that the path leads to (`exists_of_slot_join`).
-/

namespace Wheelwright

namespace Path

variable {p name : Path}

@[simp] theorem bytes_ofString (s : String) : (ofString s).bytes = Utf8.encode s := rfl

/-- A text spells a path with a slash exactly if it has one. -/
theorem slash_mem_ofString (s : String) : slash ∈ (ofString s).bytes ↔ '/' ∈ s.toList := by
  have hs : slash = '/'.toNat.toUInt8 := by decide
  rw [hs, bytes_ofString]
  exact Utf8.mem_encode_iff (by decide) s

/-- A text spells an absolute path exactly if it begins with a slash. -/
theorem isAbsolute_ofString (s : String) :
    (ofString s).isAbsolute = true ↔ s.toList.head? = some '/' := by
  have hs : slash = '/'.toNat.toUInt8 := by decide
  rw [isAbsolute, beq_iff_eq, bytes_ofString, Utf8.encode]
  cases s.toList with
  | nil => simp
  | cons c cs =>
    rw [List.flatMap_cons, List.head?_cons, Option.some.injEq]
    constructor
    · intro h
      have hm : slash ∈ Utf8.encodeChar c := by
        obtain ⟨b, bs, hb⟩ := List.exists_cons_of_ne_nil (Utf8.encodeChar_ne_nil c)
        rw [hb, List.cons_append, List.head?_cons, Option.some.injEq] at h
        rw [hb, h]
        exact List.mem_cons_self
      rw [hs] at hm
      exact ((Utf8.mem_encodeChar_iff (by decide)).1 hm).symm
    · rintro rfl
      rfl

/-- A path ends in what was joined to it. -/
theorem isSuffix_join (p name : Path) : name.bytes <:+ (p.join name).bytes := by
  unfold join
  split
  · exact List.suffix_refl _
  · split
    · exact List.suffix_append _ _
    · exact (List.suffix_cons _ _).trans (List.suffix_append _ _)

/-- Bytes that are text are the path that the text spells. -/
theorem eq_ofString_of_decode? {s : String} (h : Utf8.decode? p.bytes = some s) :
    p = ofString s := by
  rw [ofString, Utf8.decode?_eq_some_iff.1 h]

/-- A path that a text spells shows as the text. -/
@[simp] theorem display_ofString (s : String) : (ofString s).display = s := Utf8.lossy_encode s

/-- Texts joined are a text, which ends in what was joined. -/
theorem exists_join_ofString (s t : String) :
    ∃ front, (ofString s).join (ofString t) = ofString (front ++ t) := by
  have hs : Utf8.encode "/" = [slash] := rfl
  unfold join
  split
  · exact ⟨"", by simp⟩
  · split
    · exact ⟨s, by simp [ofString]⟩
    · exact ⟨s ++ "/", by simp [ofString, hs]⟩

/-- A name of a path is no longer than the path. -/
theorem length_le_of_mem_names {n : Name} (h : n ∈ p.names) : n.length ≤ p.bytes.length :=
  Split.length_le_of_mem_pieces (List.mem_filter.1 h).1

/-- A file name is a name on the way that is neither `.` nor `..`. -/
theorem mem_names_of_fileName? {n : Name} (h : p.fileName? = some n) :
    n ∈ p.names ∧ n ≠ dot ∧ n ≠ dotDot := by
  unfold fileName? at h
  split at h
  · next last hl =>
    split at h
    · cases h
    · next hd =>
      cases h
      obtain ⟨hn, hdot⟩ := List.mem_filter.1 (List.mem_of_getLast? hl)
      exact ⟨hn, by simpa using hdot, hd⟩
  · cases h

/-- The names on the two sides of a slash. -/
theorem names_append_slash (a b : Bytes) :
    names ⟨a ++ slash :: b⟩ = names ⟨a⟩ ++ names ⟨b⟩ := by
  simp only [names, pieces, Split.pieces_append_sep, List.filter_append]

/-- Bytes without a slash are one name. -/
theorem names_of_not_mem (hs : slash ∉ name.bytes) (hn : name.bytes ≠ []) :
    name.names = [name.bytes] := by
  rw [names, pieces, Split.pieces_of_not_mem hs]
  simp [hn]

theorem isAbsolute_of_not_mem (hs : slash ∉ name.bytes) : name.isAbsolute = false := by
  unfold isAbsolute
  cases hb : name.bytes with
  | nil => rfl
  | cons b bs =>
    rw [hb, List.mem_cons, not_or] at hs
    simpa using fun h => hs.1 h.symm

/-- What stands between a path and the name that is joined to it: nothing after the empty path, and
one slash otherwise, the path's own if it ends in one. -/
theorem join_cases (p : Path) (h : name.isAbsolute = false) :
    (p.bytes = [] ∧ p.join name = name) ∨
      (∃ front, p.bytes = front ++ [slash] ∧ p.join name = ⟨front ++ slash :: name.bytes⟩) ∨
      (p.bytes ≠ [] ∧ p.join name = ⟨p.bytes ++ slash :: name.bytes⟩) := by
  unfold join
  rw [h, if_neg Bool.false_ne_true]
  by_cases he : p.bytes = []
  · exact .inl ⟨he, by simp [he]⟩
  · by_cases hl : p.bytes.getLast? = some slash
    · obtain ⟨front, hf⟩ := List.getLast?_eq_some_iff.1 hl
      exact .inr (.inl ⟨front, hf, by simp [hf]⟩)
    · exact .inr (.inr ⟨he, by simp [he, hl]⟩)

/-- A name without a slash is one name more. -/
theorem names_join (p : Path) (hs : slash ∉ name.bytes) (hn : name.bytes ≠ []) :
    (p.join name).names = p.names ++ [name.bytes] := by
  have hone := names_of_not_mem hs hn
  rcases join_cases p (isAbsolute_of_not_mem hs) with ⟨he, hj⟩ | ⟨front, hf, hj⟩ | ⟨-, hj⟩
  · have hp : p.names = [] := by
      rw [names, pieces, he]
      rfl
    rw [hj, hone, hp, List.nil_append]
  · have hp : p.names = names ⟨front⟩ := by
      have ha := names_append_slash front []
      rw [show names ⟨[]⟩ = [] from rfl, List.append_nil] at ha
      rw [← ha, ← hf]
    rw [hj, names_append_slash, hone, hp]
  · rw [hj, names_append_slash, hone]

/-- A path with a name joined to it begins where it began. -/
theorem isAbsolute_join (p : Path) (h : name.isAbsolute = false) :
    (p.join name).isAbsolute = p.isAbsolute := by
  rcases join_cases p h with ⟨he, hj⟩ | ⟨front, hf, hj⟩ | ⟨hne, hj⟩
  · rw [hj, h, isAbsolute, he]
    rfl
  · rw [hj, isAbsolute, isAbsolute, hf]
    cases front <;> rfl
  · obtain ⟨b, bs, hb⟩ := List.exists_cons_of_ne_nil hne
    rw [hj, isAbsolute, isAbsolute, hb]
    rfl

end Path

/-- The place that a joined path points to is directly in the directory that the path leads to. -/
theorem Disk.exists_of_slot_join {d : Disk} {odd : OsError} {l : Location} (p name : Path)
    (hs : Path.slash ∉ name.bytes) (hn : name.bytes ≠ []) (h : d.slot (p.join name) odd = .ok l) :
    ∃ here, d.follow p p.names = .ok here ∧ d.hasDirectory here ∧ l = name.bytes :: here := by
  obtain ⟨-, last, here, hlast, -, hh, rfl⟩ := slot_eq_ok_iff.1 h
  rw [Path.names_join p hs hn] at hlast hh
  rw [List.getLast?_concat, Option.some.injEq] at hlast
  obtain ⟨hf, hd⟩ := holder_eq_ok_iff.1 hh
  rw [List.dropLast_concat] at hf
  refine ⟨here, ?_, hd, by rw [hlast]⟩
  have ha := Path.isAbsolute_join p (Path.isAbsolute_of_not_mem hs)
  rw [follow_eq_ok_iff] at hf ⊢
  unfold beginning at hf ⊢
  rwa [ha] at hf

/-- The place that a joined path points to, if the path leads to a directory: under the name in that
directory, unless the name or the joined path is too long. -/
theorem Disk.slot_join {d : Disk} {here : Location} (p name : Path) (hs : Path.slash ∉ name.bytes)
    (hn : name.bytes ≠ []) (hd : name.bytes ≠ Path.dot) (hdd : name.bytes ≠ Path.dotDot)
    (hf : d.follow p p.names = .ok here) (hh : d.hasDirectory here) (odd : OsError) :
    d.slot (p.join name) odd =
      match vet (p.join name) with
      | .error cause => .error cause
      | .ok () =>
        if longestName < name.bytes.length then .error (.os .nameTooLong)
        else .ok (name.bytes :: here) := by
  have hnames := Path.names_join p hs hn
  have ha := Path.isAbsolute_join p (Path.isAbsolute_of_not_mem hs)
  have hholder : d.holder (p.join name) (p.names ++ [name.bytes]) = .ok here := by
    rw [holder_eq_ok_iff, List.dropLast_concat]
    refine ⟨?_, hh⟩
    rw [follow_eq_ok_iff] at hf ⊢
    unfold beginning at hf ⊢
    rwa [ha]
  unfold slot
  cases vet (p.join name) with
  | error cause => rfl
  | ok u => simp [hnames, hholder, hd, hdd]

end Wheelwright
