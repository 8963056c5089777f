import Wheelwright.Proofs.Disk.Growth
/-!
# Replacing a file by way of a staged one

A file is replaced in one go: its new content is staged under a fresh name in the same directory,
and the staged file is renamed to where a path points. The main statements are

* `exists_of_stage` — a file is staged where nothing stood, in the directory that was asked for;
* `same_drop_filled` — a staged file that is taken away again leaves no trace, whatever was written
  to it;
* `exists_of_publish` — what a disk looks like after the renaming: as before the staging, but for
  the one place that the path points to, and the path pointed there before the staging too;
* `publish_filled_of_slot` — the renaming succeeds if no directory stands there.
-/

namespace Wheelwright.Disk

variable {d e f : Disk} {l t : Location} {n : Node} {p dir : Path} {content : Bytes} {mode : Nat}

namespace Same

theorem refl (d : Disk) : Same d d := ⟨rfl, fun _ => rfl⟩

theorem symm (h : Same d e) : Same e d := ⟨h.1.symm, fun l => (h.2 l).symm⟩

theorem trans (h : Same d e) (h' : Same e f) : Same d f :=
  ⟨h.1.trans h'.1, fun l => (h.2 l).trans (h'.2 l)⟩

end Same

/-! ## Staging -/

/-- A file is staged under a fresh name in the directory that the path leads to. -/
theorem exists_of_stage (h : d.stage dir = .ok (l, e)) :
    ∃ name here, l = name :: here ∧ d.follow dir dir.names = .ok here ∧ d.hasDirectory here ∧
      d.node? l = none ∧ e = d.put l (.file stagedMode []) := by
  unfold stage at h
  split at h
  · cases h
  · split at h
    · cases h
    · split at h
      · cases h
      · next here hh =>
        split at h
        · cases h
        · next name hn =>
          cases h
          obtain ⟨hf, hd⟩ := holder_eq_ok_iff.1 hh
          rw [List.dropLast_concat] at hf
          have hfree := List.find?_some hn
          exact ⟨name, here, rfl, hf, hd, by simpa using hfree, rfl⟩

/-- A staged file with its content and its mode. -/
def filled (d : Disk) (staged : Location) (content : Bytes) (mode : Nat) : Disk :=
  (d.fill staged content).setMode staged mode

/-- A staged file that is filled stands where it was staged; nothing else changed. -/
theorem same_filled : Same ((d.put l (.file stagedMode [])).filled l content mode)
    (d.put l (.file mode content)) := by
  have hfill : (d.put l (.file stagedMode [])).fill l content =
      (d.put l (.file stagedMode [])).put l (.file stagedMode content) := by
    rw [fill, node?_put_self]
  unfold filled
  rw [hfill, setMode, node?_put_self]
  refine ⟨rfl, fun x => ?_⟩
  by_cases hx : x = l
  · rw [hx, node?_put_self, node?_put_self]
  · rw [node?_put_of_ne _ hx, node?_put_of_ne _ hx, node?_put_of_ne _ hx, node?_put_of_ne _ hx]

/-- A staged file that is taken away again leaves no trace. -/
theorem same_drop_filled (hl : d.node? l = none) :
    Same (((d.put l (.file stagedMode [])).filled l content mode).drop l) d := by
  have hs : Same _ (d.put l (.file mode content)) := same_filled
  refine ⟨hs.1, fun x => ?_⟩
  by_cases hx : x = l
  · rw [hx, node?_drop_self, hl]
  · rw [node?_drop_of_ne _ hx, hs.2 x, node?_put_of_ne _ hx]

/-! ## Renaming -/

/-- A staged file is renamed to a place where no directory stands. -/
theorem publish_eq_ok_iff : d.publish l p = .ok e ↔
    p.bytes.contains 0 = false ∧ p.bytes.getLast? ≠ some Path.slash ∧
      ∃ t n, d.slot p .busy = .ok t ∧ d.node? l = some n ∧ ¬d.hasDirectory t ∧
        e = (d.drop l).put t n := by
  unfold publish
  constructor
  · intro h
    split at h
    · cases h
    · next hz =>
      split at h
      · cases h
      · next t ht =>
        split at h
        · cases h
        · next n hn =>
          split at h
          · cases h
          · next hs =>
            split at h
            · cases h
            · next hd =>
              cases h
              exact ⟨by simpa using hz, by simpa using hs, t, n, ht, hn, hd, rfl⟩
  · rintro ⟨hz, hs, t, n, ht, hn, hd, rfl⟩
    simp only [hz, ht, hn, beq_iff_eq]
    rw [if_neg hs, if_neg hd]
    rfl

/-- A file in a place where nothing stood changes no way to a place. -/
theorem slot_put_file_iff {odd : OsError} (hl : d.node? l = none)
    (hs : Same e (d.put l (.file mode content))) : e.slot p odd = .ok t ↔ d.slot p odd = .ok t := by
  constructor
  · intro h
    refine slot_transfer h hs.1.symm ?_
    intro x n hx hn
    rw [hs.2 x] at hx
    by_cases hxl : x = l
    · rw [hxl, node?_put_self] at hx
      cases hx
      rcases hn with hn | hn <;> cases hn
    · rwa [node?_put_of_ne _ hxl] at hx
  · intro h
    refine slot_transfer h hs.1 ?_
    intro x n hx _
    rw [hs.2 x, node?_put_of_vacant hl hx]

/-- A file in a place where nothing stood makes no directory. -/
theorem hasDirectory_put_file_iff (hl : d.node? l = none)
    (hs : Same e (d.put l (.file mode content))) : e.hasDirectory t ↔ d.hasDirectory t := by
  rw [hasDirectory_iff, hasDirectory_iff]
  constructor
  · rintro ⟨n, hn, hd⟩
    rw [hs.2 t] at hn
    by_cases htl : t = l
    · rw [htl, node?_put_self] at hn
      cases hn
      cases hd
    · exact ⟨n, by rwa [node?_put_of_ne _ htl] at hn, hd⟩
  · rintro ⟨n, hn, hd⟩
    exact ⟨n, by rw [hs.2 t, node?_put_of_vacant hl hn], hd⟩

/-- After the renaming the disk is as it was before the staging but for one place, to which the path
pointed then too. -/
theorem exists_of_publish (hl : d.node? l = none)
    (h : ((d.put l (.file stagedMode [])).filled l content mode).publish l p = .ok f) :
    ∃ t, d.slot p .busy = .ok t ∧ ¬d.hasDirectory t ∧ Same f (d.put t (.file mode content)) := by
  have hs : Same _ (d.put l (.file mode content)) := same_filled
  obtain ⟨-, -, t, n, ht, hn, hd, rfl⟩ := publish_eq_ok_iff.1 h
  rw [hs.2 l, node?_put_self] at hn
  cases hn
  refine ⟨t, (slot_put_file_iff hl hs).1 ht, ?_, hs.1, fun x => ?_⟩
  · rwa [hasDirectory_put_file_iff hl hs] at hd
  · by_cases hx : x = t
    · rw [hx, node?_put_self, node?_put_self]
    · rw [node?_put_of_ne _ hx, node?_put_of_ne _ hx]
      by_cases hxl : x = l
      · rw [hxl, node?_drop_self, hl]
      · rw [node?_drop_of_ne _ hxl, hs.2 x, node?_put_of_ne _ hxl]

/-- The renaming succeeds if the path pointed to a place without a directory before the staging. -/
theorem publish_filled_of_slot (hl : d.node? l = none) (hz : p.bytes.contains 0 = false)
    (hp : p.bytes.getLast? ≠ some Path.slash) (ht : d.slot p .busy = .ok t)
    (hd : ¬d.hasDirectory t) (content : Bytes) (mode : Nat) :
    ∃ f, ((d.put l (.file stagedMode [])).filled l content mode).publish l p = .ok f := by
  have hs : Same _ (d.put l (.file mode content)) := same_filled
  refine ⟨_, publish_eq_ok_iff.2 ⟨hz, hp, t, .file mode content, ?_, ?_, ?_, rfl⟩⟩
  · exact (slot_put_file_iff hl hs).2 ht
  · rw [hs.2 l, node?_put_self]
  · rwa [hasDirectory_put_file_iff hl hs]

end Wheelwright.Disk
