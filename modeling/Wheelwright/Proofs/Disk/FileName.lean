import Wheelwright.Proofs.Disk.Walk
/-!
# The name that a path ends in

What a path ends in can be told from its bytes, and what it leads to is for a disk to say. On a disk
where whatever stands somewhere stands in a directory (`Disk.IsTree`) the two go together: a path
that leads to a regular file has no slash, no `.` and no `..` at its end, since these lead to
directories, so that it ends in a name and its file name is what follows the last slash. The main
statement is `exists_fileName_of_file`. Where there are no links either, such a path points to where
it leads (`slot_of_locate`).
-/

namespace Wheelwright

/-- Without a separator at the end the last piece is not empty. -/
theorem Split.getLast?_pieces_ne {α : Type} [DecidableEq α] {sep : α} {xs : List α} (hx : xs ≠ [])
    (hs : xs.getLast? ≠ some sep) : (Split.pieces sep xs).getLast? ≠ some [] := by
  intro h
  obtain ⟨-, rfl | ⟨front, rfl⟩⟩ := getLast?_pieces_iff.1 h
  · exact hx rfl
  · exact hs List.getLast?_concat

namespace Path

/-- A relative path has a name. -/
theorem names_ne_nil {p : Path} (hb : p.bytes ≠ []) (ha : p.isAbsolute = false) : p.names ≠ [] := by
  obtain ⟨b, bs, hbs⟩ := List.exists_cons_of_ne_nil hb
  have hs : b ≠ slash := by
    rintro rfl
    rw [isAbsolute, hbs] at ha
    cases ha
  have hp : ∃ name ∈ p.pieces, name ≠ [] := by
    rw [pieces, hbs, Split.pieces, if_neg hs]
    split <;> exact ⟨_, List.mem_cons_self, by simp⟩
  obtain ⟨name, hm, hne⟩ := hp
  exact List.ne_nil_of_mem (List.mem_filter.2 ⟨hm, by simpa using hne⟩)

/-- A path that ends neither in a slash nor in a dot or two ends in its file name. -/
theorem fileName?_eq_getLast? {p : Path} {name : Name} (hn : p.names.getLast? = some name)
    (hs : p.endsInSlash = false) (hd : name ≠ dot) (hdd : name ≠ dotDot) :
    p.fileName? = some name ∧ p.pieces.getLast? = some name := by
  obtain ⟨front, hf⟩ := List.getLast?_eq_some_iff.1 hn
  constructor
  · have hl : (p.names.filter (· ≠ dot)).getLast? = some name := by
      rw [hf, List.filter_append, List.filter_cons_of_pos (by simpa using hd)]
      exact List.getLast?_concat
    rw [fileName?, hl]
    exact if_neg hdd
  · -- the last piece is not empty, so it is the last name
    have hb : p.bytes ≠ [] := by
      intro hb
      rw [names, pieces, hb] at hn
      cases hn
    have hlast : p.bytes.getLast? ≠ some slash := by
      intro h
      rw [endsInSlash, h, hf] at hs
      simp at hs
    cases hp : p.pieces.getLast? with
    | none => exact absurd (List.getLast?_eq_none_iff.1 hp) (Split.pieces_ne_nil _ _)
    | some last =>
      have hne : last ≠ [] := by
        rintro rfl
        exact Split.getLast?_pieces_ne hb hlast hp
      obtain ⟨others, ho⟩ := List.getLast?_eq_some_iff.1 hp
      have hlast : p.names.getLast? = some last := by
        rw [names, ho, List.filter_append, List.filter_cons_of_pos (by simpa using hne)]
        exact List.getLast?_concat
      rw [← hlast, hn]

end Path

namespace Disk

variable {d : Disk} {k : Nat} {l m : Location} {names : List Name} {name : Name} {p : Path}

/-- There is a directory at the root, and whatever stands somewhere else stands in a directory. -/
structure IsTree (d : Disk) : Prop where
  root : d.hasDirectory []
  above : ∀ name l, (d.node? (name :: l)).isSome → d.hasDirectory l

/-- Above a directory there is one, if it is no other than the root itself. -/
theorem IsTree.hasDirectory_tail (h : d.IsTree) (hd : d.hasDirectory l) :
    d.hasDirectory l.tail := by
  cases l with
  | nil => exact hd
  | cons name l =>
    obtain ⟨n, hn, -⟩ := hasDirectory_iff.1 hd
    exact h.above name l (by rw [hn]; rfl)

/-- A tree stays one when something is put in a directory where nothing stood. -/
theorem IsTree.put {n : Node} (h : d.IsTree) (hl : d.node? l = none) (hd : d.hasDirectory l.tail) :
    (d.put l n).IsTree := by
  have hkept : ∀ x, d.hasDirectory x → (d.put l n).hasDirectory x := by
    intro x hx
    obtain ⟨n', hn', hdir⟩ := hasDirectory_iff.1 hx
    refine hasDirectory_iff.2 ⟨n', ?_, hdir⟩
    rw [node?_put_of_ne, hn']
    rintro rfl
    rw [hl] at hn'
    cases hn'
  refine ⟨hkept [] h.root, fun name m hm => ?_⟩
  apply hkept
  by_cases hx : name :: m = l
  · rwa [← hx] at hd
  · rw [node?_put_of_ne _ hx] at hm
    exact h.above name m hm

/-- At a directory a walk without names ends. -/
theorem Leads.eq_of_hasDirectory (h : Leads d k l [] m) (hd : d.hasDirectory l) : m = l := by
  cases h with
  | stay => rfl
  | jump hn _ =>
    obtain ⟨n, hn', hdir⟩ := hasDirectory_iff.1 hd
    cases hn.symm.trans hn'
    cases hdir

/-- A dot and two dots lead to directories. -/
theorem Leads.hasDirectory_of_dots (ht : d.IsTree) (hn : name = Path.dot ∨ name = Path.dotDot)
    (h : Leads d k l (names ++ [name]) m) : d.hasDirectory m := by
  obtain ⟨here, there, j, -, hd, hb, h⟩ := h.exists_last
  have hd' : d.hasDirectory there := by
    unfold beside at hb
    rcases hn with rfl | rfl
    · cases hb
      exact hd
    · cases hb
      exact ht.hasDirectory_tail hd
  rwa [h.eq_of_hasDirectory hd']

/-- A path that leads to no directory has no slash, no dot and no two dots at its end: these lead to
directories. -/
theorem exists_names_of_locate (ht : d.IsTree) (h : d.locate p = .ok m) (hm : ¬d.hasDirectory m) :
    p.endsInSlash = false ∧ ∃ front name, p.names = front ++ [name] ∧ name ≠ Path.dot ∧
      name ≠ Path.dotDot ∧
      Leads d mostLinks (beginning d.workingDirectory p) (front ++ [name]) m := by
  obtain ⟨hv, hf⟩ := locate_eq_ok_iff.1 h
  rw [follow_eq_ok_iff] at hf
  have hs : p.endsInSlash = false := by
    cases hs : p.endsInSlash with
    | false => rfl
    | true =>
      rw [Path.steps, hs, if_pos rfl] at hf
      exact absurd (hf.hasDirectory_of_dots ht (.inl rfl)) hm
  rw [Path.steps, hs, if_neg Bool.false_ne_true, List.append_nil] at hf
  refine ⟨hs, ?_⟩
  cases hlast : p.names.getLast? with
  | none =>
    -- only the root has a path without names
    have hnames := List.getLast?_eq_none_iff.1 hlast
    have hb : p.bytes ≠ [] := by
      intro hb
      unfold vet at hv
      simp [Path.isEmpty, hb] at hv
    have ha : p.isAbsolute = true := by
      cases ha : p.isAbsolute with
      | true => rfl
      | false => exact absurd hnames (Path.names_ne_nil hb ha)
    rw [hnames, beginning, if_pos ha] at hf
    rw [hf.eq_of_hasDirectory ht.root] at hm
    exact absurd ht.root hm
  | some name =>
    obtain ⟨front, hfront⟩ := List.getLast?_eq_some_iff.1 hlast
    rw [hfront] at hf
    refine ⟨front, name, hfront, ?_, ?_, hf⟩
    · intro hd
      exact hm (hf.hasDirectory_of_dots ht (.inl hd))
    · intro hd
      exact hm (hf.hasDirectory_of_dots ht (.inr hd))

/-- A path that leads to a regular file ends in a name, which is its file name and follows its last
slash. -/
theorem exists_fileName_of_file (ht : d.IsTree) {mode : Nat} {content : Bytes}
    (h : d.find? p = .ok (.file mode content)) :
    ∃ name, p.fileName? = some name ∧ p.pieces.getLast? = some name := by
  obtain ⟨m, hm, hn⟩ := find?_eq_ok_iff.1 h
  have hfile : ¬d.hasDirectory m := by
    rw [hasDirectory_iff]
    rintro ⟨n, hn', hd⟩
    cases hn.symm.trans hn'
    cases hd
  obtain ⟨hs, front, name, hnames, hd, hdd, -⟩ := exists_names_of_locate ht hm hfile
  have hlast : p.names.getLast? = some name := by rw [hnames, List.getLast?_concat]
  exact ⟨name, Path.fileName?_eq_getLast? hlast hs hd hdd⟩

/-! ## Where a path points without links -/

/-- No symbolic link stands anywhere. -/
def HasNoLinks (d : Disk) : Prop := ∀ l target, d.node? l ≠ some (.link target)

/-- What is put somewhere is no link if it is none. -/
theorem HasNoLinks.put {n : Node} (h : d.HasNoLinks) (hn : n.isLink = false) :
    (d.put l n).HasNoLinks := by
  intro x target hx
  by_cases hxl : x = l
  · rw [hxl, node?_put_self] at hx
    cases hx
    cases hn
  · rw [node?_put_of_ne _ hxl] at hx
    exact h x target hx

/-- Without links a walk without names stays where it is. -/
theorem Leads.eq_of_hasNoLinks (h : Leads d k l [] m) (hl : d.HasNoLinks) : m = l := by
  cases h with
  | stay => rfl
  | jump hn _ => exact absurd hn (hl _ _)

/-- Without links a path that leads to no directory points to where it leads. -/
theorem slot_of_locate (ht : d.IsTree) (hl : d.HasNoLinks) (h : d.locate p = .ok m)
    (hm : ¬d.hasDirectory m) (odd : OsError) : d.slot p odd = .ok m := by
  obtain ⟨-, front, name, hnames, hd, hdd, hleads⟩ := exists_names_of_locate ht h hm
  obtain ⟨here, there, j, hfront, hhere, hb, hthere⟩ := hleads.exists_last
  rw [hthere.eq_of_hasNoLinks hl]
  have hlength : ¬longestName < name.length := by
    intro hlong
    rw [beside, if_neg hd, if_neg hdd, if_pos hlong] at hb
    cases hb
  have hplain : IsPlain name := ⟨hd, hdd, Nat.not_lt.1 hlength⟩
  rw [beside_of_isPlain hplain, Except.ok.injEq] at hb
  have hholder : d.holder p p.names = .ok here := by
    rw [holder_eq_ok_iff, hnames, List.dropLast_concat, follow_eq_ok_iff]
    exact ⟨hfront, hhere⟩
  refine slot_eq_ok_iff.2 ⟨(locate_eq_ok_iff.1 h).1, name, here, ?_, hplain, hholder, hb.symm⟩
  rw [hnames, List.getLast?_concat]

end Disk
end Wheelwright
