import Wheelwright.Disk.Files
import Wheelwright.Proofs.Disk.Walk
/-!
# Disks that grow

Making a directory, with the directories above it as far as they are missing, loses nothing. What
it may add is said here once, as a relation between the disk before and the disk after: everything
that was there is still there, and whatever is new is a directory to which the path, or that of a
directory above it, leads (`Disk.Grown`). The relation is reflexive and transitive
(`Grown.refl`, `Grown.trans`), and one directory made is an instance (`grown_makeDirectory`).
-/

namespace Wheelwright

/-- The path itself, and the paths of the directories above it. -/
inductive Path.Above (p : Path) : Path → Prop
  | self : Above p p
  | parent {q r : Path} (h : Above p q) (hr : q.parent? = some r) : Above p r

/-- What is above a directory above is above. -/
theorem Path.Above.trans {p q r : Path} (h : p.Above q) (h' : q.Above r) : p.Above r := by
  induction h' with
  | self => exact h
  | parent _ hr ih => exact .parent ih hr

/-- A path above is a beginning of the path. -/
theorem Path.Above.isPrefix {p q : Path} (h : p.Above q) : q.bytes <+: p.bytes := by
  induction h with
  | self => exact List.prefix_refl _
  | parent _ hr ih => exact (Path.parent?_eq_some hr).1.trans ih

namespace Disk

variable {d e f : Disk} {l : Location} {n : Node} {p q : Path}

/-- Nothing was lost or changed, and whatever is new is a directory that `p` or a path above it
leads to. -/
structure Grown (p : Path) (d e : Disk) : Prop where
  workingDirectory : e.workingDirectory = d.workingDirectory
  kept : ∀ l n, d.node? l = some n → e.node? l = some n
  new : ∀ l n, d.node? l = none → e.node? l = some n →
    n = .directory directoryMode ∧ ∃ q, p.Above q ∧ e.locate q = .ok l

/-- A path leads to the same place when something is added. -/
theorem locate_of_kept (h : d.locate p = .ok l)
    (hw : e.workingDirectory = d.workingDirectory)
    (he : ∀ l n, d.node? l = some n → e.node? l = some n) : e.locate p = .ok l := by
  obtain ⟨hv, hf⟩ := locate_eq_ok_iff.1 h
  refine locate_eq_ok_iff.2 ⟨hv, ?_⟩
  rw [follow_eq_ok_iff] at hf ⊢
  rw [hw]
  exact hf.transfer fun x n hx _ => he x n hx

namespace Grown

theorem refl (p : Path) (d : Disk) : Grown p d d where
  workingDirectory := rfl
  kept := fun _ _ h => h
  new := fun _ _ h h' => by rw [h] at h'; cases h'

theorem trans (h : Grown p d e) (h' : Grown p e f) : Grown p d f where
  workingDirectory := h'.workingDirectory.trans h.workingDirectory
  kept := fun l n hn => h'.kept l n (h.kept l n hn)
  new := by
    intro l n hd hf
    cases he : e.node? l with
    | none => exact h'.new l n he hf
    | some n' =>
      obtain ⟨rfl, q, hq, hl⟩ := h.new l n' hd he
      rw [h'.kept l _ he] at hf
      cases hf
      exact ⟨rfl, q, hq, locate_of_kept hl h'.workingDirectory h'.kept⟩

/-- What grew towards a directory above grew towards the path. -/
theorem of_above (h : Grown q d e) (hq : p.Above q) : Grown p d e where
  workingDirectory := h.workingDirectory
  kept := h.kept
  new := by
    intro l n hd he
    obtain ⟨hn, r, hr, hl⟩ := h.new l n hd he
    exact ⟨hn, r, hq.trans hr, hl⟩

/-- A disk that looks the same has grown as much. -/
theorem congr_right (h : Grown p d e) (hs : Same e f) : Grown p d f where
  workingDirectory := hs.1.symm.trans h.workingDirectory
  kept := fun l n hn => (hs.2 l).symm.trans (h.kept l n hn)
  new := by
    intro l n hd hf
    obtain ⟨hn, q, hq, hl⟩ := h.new l n hd ((hs.2 l).trans hf)
    exact ⟨hn, q, hq, locate_of_kept hl hs.1.symm fun x n hx => (hs.2 x).symm.trans hx⟩

end Grown

/-- A directory is made where nothing stands. -/
theorem makeDirectory_eq_ok_iff : d.makeDirectory p = .ok e ↔
    ∃ l, d.slot p .fileExists = .ok l ∧ d.node? l = none ∧
      e = d.put l (.directory directoryMode) := by
  unfold makeDirectory
  constructor
  · intro h
    split at h
    · cases h
    · next l hl =>
      split at h
      · cases h
      · next hn =>
        cases h
        exact ⟨l, hl, hn, rfl⟩
  · rintro ⟨l, hl, hn, rfl⟩
    simp only [hl, hn]

/-- What stands somewhere stays when something is put where nothing was. -/
theorem node?_put_of_vacant (hl : d.node? l = none) {x : Location} {n' : Node}
    (hx : d.node? x = some n') : (d.put l n).node? x = some n' := by
  rw [node?_put_of_ne, hx]
  rintro rfl
  rw [hl] at hx
  cases hx

/-- One directory that is made is all that is new. -/
theorem grown_makeDirectory (h : d.makeDirectory p = .ok e) : Grown p d e := by
  obtain ⟨l, hl, hn, rfl⟩ := makeDirectory_eq_ok_iff.1 h
  refine ⟨rfl, fun x n' hx => node?_put_of_vacant hn hx, ?_⟩
  intro x n' hd he
  by_cases hx : x = l
  · subst hx
    rw [node?_put_self] at he
    cases he
    refine ⟨rfl, p, .self, ?_⟩
    exact locate_of_slot (slot_transfer hl rfl fun y n' hy _ => node?_put_of_vacant hn hy)
      (node?_put_self ..) rfl fun _ => rfl
  · rw [node?_put_of_ne _ hx, hd] at he
    cases he

/-! ## Directories that are there already -/

/-- A path that leads to a directory leads to one without the slash at its end. -/
theorem exists_follow_of_isDirectory (h : d.isDirectory p) :
    ∃ here, d.follow p p.names = .ok here ∧ d.hasDirectory here := by
  unfold isDirectory at h
  split at h
  · next n hf =>
    obtain ⟨l, hl, hn⟩ := find?_eq_ok_iff.1 hf
    obtain ⟨-, hl⟩ := locate_eq_ok_iff.1 hl
    cases hs : p.endsInSlash with
    | false =>
      rw [Path.steps, hs, if_neg Bool.false_ne_true, List.append_nil] at hl
      exact ⟨l, hl, hasDirectory_iff.2 ⟨n, hn, h⟩⟩
    | true =>
      rw [Path.steps, hs, if_pos rfl, follow_eq_ok_iff] at hl
      obtain ⟨here, hw, hd⟩ := hl.exists_of_concat
      exact ⟨here, follow_eq_ok_iff.2 hw, hd⟩
  · cases h

theorem vet_of_isDirectory (h : d.isDirectory p) : vet p = .ok () := by
  unfold isDirectory at h
  split at h
  · next n hf =>
    obtain ⟨l, hl, -⟩ := find?_eq_ok_iff.1 hf
    exact (locate_eq_ok_iff.1 hl).1
  · cases h

/-- A directory that is there is not made again, but not because something is missing. -/
theorem makeDirectory_of_isDirectory (h : d.isDirectory p) :
    d.makeDirectory p = .error (.os .fileExists) := by
  have hv := vet_of_isDirectory h
  obtain ⟨here, hf, hd⟩ := exists_follow_of_isDirectory h
  unfold makeDirectory slot
  cases hlast : p.names.getLast? with
  | none =>
    have hh : d.holder p p.names = .ok here := by
      rw [List.getLast?_eq_none_iff.1 hlast] at hf ⊢
      exact holder_eq_ok_iff.2 ⟨hf, hd⟩
    simp only [hv, hh]
  | some name =>
    obtain ⟨front, hnames⟩ := List.getLast?_eq_some_iff.1 hlast
    rw [follow_eq_ok_iff, hnames] at hf
    obtain ⟨above, there, j, hw, hd, hb, hthere⟩ := hf.exists_last
    have hh : d.holder p p.names = .ok above := by
      rw [holder_eq_ok_iff, hnames, List.dropLast_concat]
      exact ⟨follow_eq_ok_iff.2 hw, hd⟩
    simp only [hv, hh]
    by_cases hdots : name = Path.dot ∨ name = Path.dotDot
    · simp [hdots]
    · rw [not_or] at hdots
      have hlength : ¬longestName < name.length := by
        intro hlong
        rw [beside, if_neg hdots.1, if_neg hdots.2, if_pos hlong] at hb
        cases hb
      rw [beside, if_neg hdots.1, if_neg hdots.2, if_neg hlength, Except.ok.injEq] at hb
      obtain ⟨n, hn⟩ := Option.isSome_iff_exists.1 hthere.isSome
      rw [← hb] at hn
      simp [hdots, hlength, hn]

end Disk
end Wheelwright
