import Mathlib.Data.List.Nodup
import Mathlib.Data.List.Perm.Subperm
import Wheelwright.Proofs.Disk.Replacement
/-!
# Room for a staged file

The names for staged files are all different, so of one more name than a directory lists there is
always one that is free. Whether a file can be staged in a directory is therefore a question of its
path alone, and not of what else is on the disk. The main statement is `stage_of_hasDirectory`.
-/

namespace Wheelwright.Disk

variable {d : Disk} {here : Location} {dir : Path}

/-! ## Names are all different -/

/-- The number in a staging name. -/
def stagingNumber (name : Name) : Nat :=
  Nat.ofDigitChars 10 ((name.drop 4).map fun b => Char.ofNat b.toNat) 0

theorem ofNat_toUInt8_of_isDigit {c : Char} (h : c.isDigit = true) :
    Char.ofNat c.toNat.toUInt8.toNat = c := by
  have hc : c.toNat ≤ 57 := by
    simp only [Char.isDigit, Bool.and_eq_true, decide_eq_true_eq] at h
    exact h.2
  have hn : c.toNat.toUInt8.toNat = c.toNat := by
    rw [Nat.toUInt8_eq, UInt8.toNat_ofNat']
    omega
  rw [hn, Char.ofNat_toNat]

theorem stagingNumber_stagingName (k : Nat) : stagingNumber (stagingName k) = k := by
  have hl : (Utf8.encode ".tmp").length = 4 := by decide +kernel
  have hzero : Char.ofNat (0x30 : UInt8).toNat = '0' := by decide
  have hdigits : ((Nat.toDigits 10 k).map fun c => c.toNat.toUInt8).map
      (fun b => Char.ofNat b.toNat) = Nat.toDigits 10 k := by
    rw [List.map_map, List.map_congr_left (g := id), List.map_id]
    intro c hc
    exact ofNat_toUInt8_of_isDigit (Nat.isDigit_of_mem_toDigits (by decide) (by decide) hc)
  -- zeros in front do not change the number
  unfold stagingNumber stagingName
  rw [List.append_assoc, List.drop_left' hl, List.map_append, hdigits, List.map_replicate, hzero,
    Nat.ofDigitChars_append, Nat.ofDigitChars_replicate_zero]
  simp

theorem stagingName_injective : Function.Injective stagingName :=
  Function.LeftInverse.injective stagingNumber_stagingName

/-! ## One name is free -/

/-- What stands in a directory is listed there. -/
theorem mem_children_of_isSome {name : Name} (h : (d.node? (name :: here)).isSome) :
    name ∈ (d.place here).children.map (·.1) := by
  have hc : d.place (name :: here) = (d.place here).child name := by
    simp only [place, List.reverse_cons, Place.descend_append, Place.descend]
  rw [node?, hc, Place.child] at h
  cases hl : (d.place here).children.lookup name with
  | none =>
    rw [hl] at h
    cases h
  | some p =>
    obtain ⟨front, back, hb, -⟩ := List.lookup_eq_some_iff.1 hl
    simp [hb]

/-- Of one more name than a directory lists, one is free. -/
theorem exists_freeName? (d : Disk) (here : Location) : ∃ name, d.freeName? here = some name := by
  cases h : d.freeName? here with
  | some name => exact ⟨name, rfl⟩
  | none =>
    have htaken : ∀ k < (d.place here).children.length + 1,
        (d.node? (stagingName k :: here)).isSome = true := by
      intro k hk
      have hn := List.find?_eq_none.1 h (stagingName k)
        (List.mem_map_of_mem (List.mem_range.2 hk))
      simpa [Option.isSome_iff_ne_none] using hn
    have hsubset : (List.range ((d.place here).children.length + 1)).map stagingName ⊆
        (d.place here).children.map (·.1) := by
      intro name hn
      obtain ⟨k, hk, rfl⟩ := List.mem_map.1 hn
      exact mem_children_of_isSome (htaken k (List.mem_range.1 hk))
    have hnodup : ((List.range ((d.place here).children.length + 1)).map stagingName).Nodup :=
      List.Nodup.map stagingName_injective List.nodup_range
    have hlength := (hnodup.subperm hsubset).length_le
    simp only [List.length_map, List.length_range] at hlength
    omega

/-- In a directory a file can be staged exactly if its path is not too long. -/
theorem stage_of_hasDirectory (hz : dir.bytes.contains 0 = false)
    (hf : d.follow dir dir.names = .ok here) (hd : d.hasDirectory here) :
    if longestPath < (d.stagingPath dir).bytes.length then
      d.stage dir = .error (.os .nameTooLong)
    else ∃ made, d.stage dir = .ok made := by
  have hh : d.holder dir (dir.names ++ [stagingName 0]) = .ok here := by
    rw [holder_eq_ok_iff, List.dropLast_concat]
    exact ⟨hf, hd⟩
  obtain ⟨name, hn⟩ := exists_freeName? d here
  unfold stage
  simp only [hz, Bool.false_eq_true, if_false, hh, hn]
  split
  · rfl
  · exact ⟨_, rfl⟩

end Wheelwright.Disk
