import Wheelwright.Proofs.Disk.FileName
import Wheelwright.Proofs.Disk.Replacement
/-!
# Disks that differ in one place

A place where neither a directory nor a link stands is on the way to no other place. So two disks
that differ in such a place alone (`Disk.AlikeBut`) have the same directories, and paths point to
the same places on both. The main statement is `find?_file_iff`: on trees without links a path that
does not point to the place leads to the same file on both, or to none.
-/

namespace Wheelwright.Disk

variable {d e f : Disk} {l t here : Location} {p : Path} {mode : Nat} {content : Bytes}

/-- A file at the location is what the path leads to. With a slash at its end it asks for a
directory, and so it points to no file. -/
def PointsTo (d : Disk) (p : Path) (l : Location) : Prop :=
  p.endsInSlash = false ∧ d.slot p .busy = .ok l

/-- The place that a path points to is in a directory. -/
theorem PointsTo.hasDirectory_tail (h : d.PointsTo p l) : d.hasDirectory l.tail := by
  obtain ⟨-, name, here, -, -, hh, rfl⟩ := slot_eq_ok_iff.1 h.2
  exact (holder_eq_ok_iff.1 hh).2

/-- What stands at a location, if anything does, is no directory and no link. -/
def IsDeadEnd (d : Disk) (l : Location) : Prop :=
  ∀ n, d.node? l = some n → n.isDirectory = false ∧ n.isLink = false

/-- The disks differ at one location at most, and only if no way goes on from there. -/
structure AlikeBut (t : Location) (d e : Disk) : Prop where
  workingDirectory : e.workingDirectory = d.workingDirectory
  nodes : ∀ l, e.node? l = d.node? l ∨ l = t ∧ d.IsDeadEnd t ∧ e.IsDeadEnd t

namespace AlikeBut

theorem symm (h : AlikeBut t d e) : AlikeBut t e d where
  workingDirectory := h.workingDirectory.symm
  nodes := by
    intro l
    rcases h.nodes l with hl | ⟨hl, hd, he⟩
    · exact .inl hl.symm
    · exact .inr ⟨hl, he, hd⟩

theorem of_same (h : Same d e) : AlikeBut t d e := ⟨h.1.symm, fun l => .inl (h.2 l).symm⟩

/-- A file put in a place that is on no way makes no other difference. -/
theorem of_put (hd : d.IsDeadEnd t) (hs : Same e (d.put t (.file mode content))) :
    AlikeBut t d e where
  workingDirectory := hs.1
  nodes := by
    intro l
    by_cases hl : l = t
    · refine .inr ⟨hl, hd, fun n hn => ?_⟩
      rw [hs.2 t, node?_put_self] at hn
      cases hn
      exact ⟨rfl, rfl⟩
    · rw [hs.2 l, node?_put_of_ne _ hl]
      exact .inl rfl

/-- The same directories and links stand on both. -/
theorem node?_eq (h : AlikeBut t d e) {n : Node} (hn : d.node? l = some n)
    (hw : n.isDirectory ∨ n.isLink) : e.node? l = some n := by
  rcases h.nodes l with hl | ⟨rfl, hd, -⟩
  · rw [hl, hn]
  · obtain ⟨hdir, hlink⟩ := hd n hn
    simp [hdir, hlink] at hw

theorem node?_eq_of_ne (h : AlikeBut t d e) (hl : l ≠ t) : e.node? l = d.node? l := by
  rcases h.nodes l with he | ⟨rfl, -⟩
  · exact he
  · exact absurd rfl hl

theorem hasDirectory (h : AlikeBut t d e) (hd : d.hasDirectory l) : e.hasDirectory l := by
  obtain ⟨n, hn, hdir⟩ := hasDirectory_iff.1 hd
  exact hasDirectory_iff.2 ⟨n, h.node?_eq hn (.inl hdir), hdir⟩

theorem hasDirectory_eq (h : AlikeBut t d e) (l : Location) :
    e.hasDirectory l = d.hasDirectory l := by
  rw [Bool.eq_iff_iff]
  exact ⟨h.symm.hasDirectory, h.hasDirectory⟩

/-- A path leads to the same directory on both. -/
theorem follow_eq (h : AlikeBut t d e) {names : List Name} (hf : d.follow p names = .ok here)
    (hd : d.hasDirectory here) : e.follow p names = .ok here := by
  rw [follow_eq_ok_iff] at hf ⊢
  rw [h.workingDirectory]
  apply hf.transfer
  intro x n hx hw
  rcases hw with hw | hw | rfl
  · exact h.node?_eq hx (.inl hw)
  · exact h.node?_eq hx (.inr hw)
  · obtain ⟨n', hn', hdir⟩ := hasDirectory_iff.1 hd
    cases hx.symm.trans hn'
    exact h.node?_eq hx (.inl hdir)

theorem pointsTo (h : AlikeBut t d e) (hp : d.PointsTo p l) : e.PointsTo p l :=
  ⟨hp.1, slot_transfer hp.2 h.workingDirectory fun _ _ hx hw => h.node?_eq hx hw⟩

theorem pointsTo_iff (h : AlikeBut t d e) : e.PointsTo p l ↔ d.PointsTo p l :=
  ⟨h.symm.pointsTo, h.pointsTo⟩

/-- Where a path leads to a directory on one it leads to one on the other. -/
theorem isDirectory (h : AlikeBut t d e) (hd : d.isDirectory p = true) :
    e.isDirectory p = true := by
  have hv := vet_of_isDirectory hd
  unfold Disk.isDirectory at hd
  split at hd
  · next n hf =>
    obtain ⟨l, hl, hn⟩ := find?_eq_ok_iff.1 hf
    have hl' := h.follow_eq (locate_eq_ok_iff.1 hl).2 (hasDirectory_iff.2 ⟨n, hn, hd⟩)
    have hf' : e.find? p = .ok n :=
      find?_eq_ok_iff.2 ⟨l, locate_eq_ok_iff.2 ⟨hv, hl'⟩, h.node?_eq hn (.inl hd)⟩
    simp only [Disk.isDirectory, hf', hd]
  · cases hd

/-- Where one has no links the other has none. -/
theorem hasNoLinks (h : AlikeBut t d e) (hl : d.HasNoLinks) : e.HasNoLinks := by
  intro l target hn
  exact hl l target (h.symm.node?_eq hn (.inr rfl))

/-- Where one is a tree the other is one, if the place they differ in is in a directory. -/
theorem isTree (h : AlikeBut t d e) (ht : d.IsTree) (hd : d.hasDirectory t.tail) : e.IsTree where
  root := h.hasDirectory ht.root
  above := by
    intro name l hn
    apply h.hasDirectory
    by_cases hl : name :: l = t
    · rwa [← hl] at hd
    · rw [h.node?_eq_of_ne hl] at hn
      exact ht.above name l hn

/-- A file that a path leads to is found on the other disk too, if the path does not point to the
place they differ in. -/
theorem find?_file (h : AlikeBut t d e) (ht : d.IsTree) (hl : d.HasNoLinks)
    (hp : ¬d.PointsTo p t) (hf : d.find? p = .ok (.file mode content)) :
    e.find? p = .ok (.file mode content) := by
  obtain ⟨m, hm, hn⟩ := find?_eq_ok_iff.1 hf
  have hdir : ¬d.hasDirectory m := by simp [Disk.hasDirectory, hn, Node.isDirectory]
  have hne : m ≠ t := by
    rintro rfl
    exact hp ⟨(exists_names_of_locate ht hm hdir).1, slot_of_locate ht hl hm hdir .busy⟩
  obtain ⟨hv, hleads⟩ := locate_eq_ok_iff.1 hm
  refine find?_eq_ok_iff.2 ⟨m, locate_eq_ok_iff.2 ⟨hv, ?_⟩, ?_⟩
  · rw [follow_eq_ok_iff] at hleads ⊢
    rw [h.workingDirectory]
    apply hleads.transfer
    intro x n hx hw
    rcases hw with hw | hw | rfl
    · exact h.node?_eq hx (.inl hw)
    · exact h.node?_eq hx (.inr hw)
    · rw [h.node?_eq_of_ne hne, hx]
  · rw [h.node?_eq_of_ne hne, hn]

/-- A path leads to the same file on both, if it does not point to the place they differ in. -/
theorem find?_file_iff (h : AlikeBut t d e) (ht : d.IsTree) (hl : d.HasNoLinks)
    (hd : d.hasDirectory t.tail) (hp : ¬d.PointsTo p t) :
    e.find? p = .ok (.file mode content) ↔ d.find? p = .ok (.file mode content) := by
  constructor
  · apply h.symm.find?_file (h.isTree ht hd) (h.hasNoLinks hl)
    rwa [h.pointsTo_iff]
  · exact h.find?_file ht hl hp

end AlikeBut
end Wheelwright.Disk
