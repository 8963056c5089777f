import Wheelwright.Disk.Resolve
/-!
# Walks as a relation

`walk` carries the places that it goes through. Here the same walk is said of locations alone:
`Leads d k l names m` holds if the names lead from `l` to `m` through at most `k` links. The main
statements are

* `walk_eq_ok_iff` — a walk succeeds exactly if the relation holds;
* `Leads.transfer` — a walk needs nothing of a disk but the directories and links on the way and
  what stands at its end, so it is the same on every disk that has them;
* `Leads.append` — a walk can be taken up again where it ended.
-/

namespace Wheelwright

/-- Whether the node is a symbolic link. -/
def Node.isLink : Node → Bool
  | .link _ => true
  | _ => false

theorem Node.eq_link_of_isLink {n : Node} (h : ¬n.isLink = false) : ∃ target, n = .link target := by
  cases n with
  | link target => exact ⟨target, rfl⟩
  | _ => exact absurd rfl h

/-- A directory is no link. -/
theorem Node.isLink_of_isDirectory {n : Node} (h : n.isDirectory = true) : n.isLink = false := by
  cases n with
  | link target => cases h
  | _ => rfl

namespace Disk

variable {d e : Disk} {k j : Nat} {l m t : Location} {names rest : List Name} {p q : Path}

/-- Where the walk along a path begins, seen from a location. -/
def beginning (l : Location) (p : Path) : Location := if p.isAbsolute then [] else l

/-- The location that one name leads to from a directory, whether or not something is there. -/
def beside (l : Location) (name : Name) : Except OsError Location :=
  if name = Path.dot then .ok l
  else if name = Path.dotDot then .ok l.tail
  else if longestName < name.length then .error .nameTooLong
  else .ok (name :: l)

/-- The names lead from one location to another through at most so many links. -/
inductive Leads (d : Disk) : Nat → Location → List Name → Location → Prop
  /-- No name is left, and what is there is no link. -/
  | stay {k : Nat} {l : Location} {n : Node} (hn : d.node? l = some n) (hl : n.isLink = false) :
      Leads d k l [] l
  /-- A link is replaced by the names of its target. -/
  | jump {k : Nat} {l m : Location} {target : Path} {names : List Name}
      (hn : d.node? l = some (.link target))
      (h : Leads d k (beginning l.tail target) (target.steps ++ names) m) :
      Leads d (k + 1) l names m
  /-- A name is looked up in a directory. -/
  | down {k : Nat} {l l' m : Location} {n : Node} {name : Name} {rest : List Name}
      (hn : d.node? l = some n) (hd : n.isDirectory = true) (hb : beside l name = .ok l')
      (h : Leads d k l' rest m) : Leads d k l (name :: rest) m

/-! ## The walk and the relation -/

theorem startFrom_wayTo (d : Disk) (l : Location) (p : Path) :
    startFrom (d.wayTo l) p = d.wayTo (beginning l p) := by
  unfold startFrom beginning
  split <;> rfl

theorem next_wayTo (d : Disk) (l : Location) (name : Name) :
    d.next (d.wayTo l) name = (beside l name).map d.wayTo := by
  unfold next beside
  split
  · rfl
  · split
    · simp [Except.map]
    · split <;> rfl

/-- What the end of the way to a location shows is what stands there. -/
theorem node_ending_wayTo (d : Disk) (l : Location) : (d.ending (d.wayTo l)).node = d.node? l := by
  rw [ending_wayTo]
  rfl

section steps

variable {follow : Way → List Name → Except OsError Location} {n : Node} {target : Path}

theorem walkWith_none (hn : d.node? l = none) :
    d.walkWith follow (d.wayTo l) names = .error .noEntry := by
  rw [walkWith.eq_def, node_ending_wayTo, hn]

theorem walkWith_link (hn : d.node? l = some (.link target)) :
    d.walkWith follow (d.wayTo l) names =
      follow (d.wayTo (beginning l.tail target)) (target.steps ++ names) := by
  rw [walkWith.eq_def, node_ending_wayTo, hn, tail_wayTo, ← startFrom_wayTo]

theorem walkWith_nil (hn : d.node? l = some n) (hl : n.isLink = false) :
    d.walkWith follow (d.wayTo l) [] = .ok l := by
  rw [walkWith.eq_def, node_ending_wayTo, hn, location_wayTo]
  cases n <;> first | rfl | cases hl

theorem walkWith_cons (hn : d.node? l = some n) (hl : n.isLink = false) {name : Name} :
    d.walkWith follow (d.wayTo l) (name :: rest) =
      if n.isDirectory then
        match beside l name with
        | .error e => .error e
        | .ok l' => d.walkWith follow (d.wayTo l') rest
      else .error .notDirectory := by
  rw [walkWith.eq_def, node_ending_wayTo, hn]
  cases n with
  | link target => cases hl
  | directory mode =>
    dsimp only
    rw [next_wayTo]
    cases beside l name <;> rfl
  | file mode content => rfl
  | nullDevice => rfl

end steps

/-- A walk that succeeds is in the relation, if its way on from links is. -/
theorem leads_of_walkWith {follow : Way → List Name → Except OsError Location}
    (hf : ∀ l target names, d.node? l = some (.link target) →
      follow (d.wayTo (beginning l.tail target)) (target.steps ++ names) = .ok m →
      Leads d k l names m) (h : d.walkWith follow (d.wayTo l) names = .ok m) :
    Leads d k l names m := by
  induction names generalizing l with
  | nil =>
    cases hn : d.node? l with
    | none => rw [walkWith_none hn] at h; cases h
    | some n =>
      by_cases hl : n.isLink = false
      · rw [walkWith_nil hn hl] at h
        cases h
        exact .stay hn hl
      · obtain ⟨target, rfl⟩ := Node.eq_link_of_isLink hl
        rw [walkWith_link hn] at h
        exact hf l target [] hn h
  | cons name rest ih =>
    cases hn : d.node? l with
    | none => rw [walkWith_none hn] at h; cases h
    | some n =>
      by_cases hl : n.isLink = false
      · rw [walkWith_cons hn hl] at h
        split at h
        · next hd =>
          split at h
          · cases h
          · next l' hb => exact .down hn hd hb (ih h)
        · cases h
      · obtain ⟨target, rfl⟩ := Node.eq_link_of_isLink hl
        rw [walkWith_link hn] at h
        exact hf l target (name :: rest) hn h

/-- A walk succeeds exactly if the names lead there. -/
theorem walk_eq_ok_iff : d.walk k (d.wayTo l) names = .ok m ↔ Leads d k l names m := by
  constructor
  · intro h
    induction k generalizing l names with
    | zero => exact leads_of_walkWith (fun _ _ _ _ h => by cases h) h
    | succ k ih => exact leads_of_walkWith (fun l target names hn h => .jump hn (ih h)) h
  · intro h
    induction h with
    | @stay k l n hn hl => cases k <;> exact walkWith_nil hn hl
    | @jump k l m target names hn _ ih => exact (walkWith_link hn).trans ih
    | @down k l l' m n name rest hn hd hb _ ih =>
      have hl := Node.isLink_of_isDirectory hd
      cases k with
      | zero => rw [walk, walkWith_cons hn hl, if_pos hd, hb]; exact ih
      | succ k => rw [walk, walkWith_cons hn hl, if_pos hd, hb]; exact ih

/-! ## Links to spare, and walks in two parts -/

/-- A walk that gets along with some links gets along with more. -/
theorem Leads.mono (h : Leads d k l names m) (hk : k ≤ j) : Leads d j l names m := by
  induction h generalizing j with
  | stay hn hl => exact .stay hn hl
  | jump hn _ ih =>
    obtain ⟨j, rfl⟩ : ∃ i, j = i + 1 := ⟨j - 1, by omega⟩
    exact .jump hn (ih (by omega))
  | down hn hd hb _ ih => exact .down hn hd hb (ih hk)

/-- A walk can be taken up again where it ended, if the rest of it needs no links. -/
theorem Leads.append (h : Leads d k l names m) (h' : Leads d 0 m rest t) :
    Leads d k l (names ++ rest) t := by
  induction h with
  | stay => exact h'.mono (Nat.zero_le _)
  | @jump k l m target names hn _ ih =>
    refine .jump hn ?_
    rw [← List.append_assoc]
    exact ih h'
  | down hn hd hb _ ih => exact .down hn hd hb (ih h')

/-- Before its last name a walk is in a directory, and then the name is looked up there; what it
names is the end, or a link that leads to it. -/
theorem Leads.exists_last {name : Name} (h : Leads d k l (names ++ [name]) m) :
    ∃ here there j, Leads d k l names here ∧ d.hasDirectory here ∧ beside here name = .ok there ∧
      Leads d j there [] m := by
  generalize hx : names ++ [name] = xs at h
  induction h generalizing names with
  | stay => simp at hx
  | @jump k l m target rest hn _ ih =>
    subst hx
    obtain ⟨here, there, j, hl, hd⟩ := ih (List.append_assoc target.steps names [name])
    exact ⟨here, there, j, .jump hn hl, hd⟩
  | @down k l l' m n first rest hn hd hb h ih =>
    cases names with
    | nil =>
      obtain ⟨rfl, rfl⟩ := List.cons.inj hx
      exact ⟨l, l', k, .stay hn (Node.isLink_of_isDirectory hd), by simp [hasDirectory, hn, hd],
        hb, h⟩
    | cons a names =>
      obtain ⟨rfl, hrest⟩ := List.cons.inj hx
      obtain ⟨here, there, j, hl, hd'⟩ := ih hrest
      exact ⟨here, there, j, .down hn hd hb hl, hd'⟩

/-- Before its last name a walk is in a directory. -/
theorem Leads.exists_of_concat {name : Name} (h : Leads d k l (names ++ [name]) m) :
    ∃ here, Leads d k l names here ∧ d.hasDirectory here := by
  obtain ⟨here, -, -, hl, hd, -⟩ := h.exists_last
  exact ⟨here, hl, hd⟩

/-- Where a walk goes on, something stands. -/
theorem Leads.isSome (h : Leads d k l names m) : (d.node? l).isSome := by
  cases h with
  | stay hn _ => simp [hn]
  | jump hn _ => simp [hn]
  | down hn _ _ _ => simp [hn]

/-! ## Walks on another disk -/

/-- A walk needs directories and links on its way and what stands at its end: on a disk that has
them all it leads to the same place. -/
theorem Leads.transfer (h : Leads d k l names m)
    (he : ∀ x n, d.node? x = some n → n.isDirectory ∨ n.isLink ∨ x = m → e.node? x = some n) :
    Leads e k l names m := by
  induction h with
  | stay hn hl => exact .stay (he _ _ hn (.inr (.inr rfl))) hl
  | jump hn _ ih => exact .jump (he _ _ hn (.inr (.inl rfl))) (ih he)
  | down hn hd hb _ ih => exact .down (he _ _ hn (.inl hd)) hd hb (ih he)

/-! ## Where paths lead -/

theorem follow_eq_ok_iff : d.follow p names = .ok m ↔
    Leads d mostLinks (beginning d.workingDirectory p) names m := by
  rw [← walk_eq_ok_iff, ← startFrom_wayTo]
  unfold follow start
  split
  · next h => rw [h]; simp
  · next h => rw [h]; simp

theorem hasDirectory_iff : d.hasDirectory l ↔ ∃ n, d.node? l = some n ∧ n.isDirectory := by
  unfold hasDirectory
  cases d.node? l <;> simp

theorem holder_eq_ok_iff : d.holder p names = .ok m ↔
    d.follow p names.dropLast = .ok m ∧ d.hasDirectory m := by
  unfold holder
  split
  · next h => simp [h]
  · next here h =>
    rw [h]
    split
    · next hd => constructor <;> (rintro h; simp_all)
    · next hd => constructor <;> (rintro h; simp_all)

theorem locate_eq_ok_iff : d.locate p = .ok l ↔ vet p = .ok () ∧ d.follow p p.steps = .ok l := by
  unfold locate
  cases hv : vet p with
  | error e => simp
  | ok u => simp

/-- A path that leads somewhere has no NUL byte. -/
theorem contains_of_vet (h : vet p = .ok ()) : p.bytes.contains 0 = false := by
  unfold vet at h
  split at h
  · cases h
  · next hz => simpa using hz

/-- A path that leads somewhere is not too long. -/
theorem length_le_of_vet (h : vet p = .ok ()) : p.bytes.length ≤ longestPath := by
  unfold vet at h
  split at h
  · cases h
  · split at h
    · cases h
    · split at h
      · cases h
      · next hl => exact Nat.not_lt.1 hl

theorem find?_eq_ok_iff {n : Node} :
    d.find? p = .ok n ↔ ∃ l, d.locate p = .ok l ∧ d.node? l = some n := by
  unfold find?
  cases hl : d.locate p with
  | error e => simp
  | ok l => cases hn : d.node? l <;> simp [hn]

/-- A name that something can be given: neither the directory itself nor the one above, and not too
long. -/
structure IsPlain (name : Name) : Prop where
  ne_dot : name ≠ Path.dot
  ne_dotDot : name ≠ Path.dotDot
  length_le : name.length ≤ longestName

theorem beside_of_isPlain {name : Name} (h : IsPlain name) (l : Location) :
    beside l name = .ok (name :: l) := by
  rw [beside, if_neg h.ne_dot, if_neg h.ne_dotDot, if_neg (Nat.not_lt.2 h.length_le)]

/-- The place for the last name of a path is in the directory that the rest leads to. -/
theorem slot_eq_ok_iff {odd : OsError} : d.slot p odd = .ok l ↔
    vet p = .ok () ∧ ∃ name here, p.names.getLast? = some name ∧ IsPlain name ∧
      d.holder p p.names = .ok here ∧ l = name :: here := by
  unfold slot
  constructor
  · intro h
    split at h
    · cases h
    · next hv =>
      split at h
      · cases h
      · next here hh =>
        split at h
        · cases h
        · next name hn =>
          split at h
          · cases h
          · next ho =>
            split at h
            · cases h
            · next hl =>
              cases h
              simp only [Bool.or_eq_true, decide_eq_true_eq, not_or] at ho
              exact ⟨hv, name, here, hn, ⟨ho.1, ho.2, Nat.not_lt.1 hl⟩, hh, rfl⟩
  · rintro ⟨hv, name, here, hn, hp, hh, rfl⟩
    simp only [hv, hh, hn]
    rw [if_neg (by simp [hp.ne_dot, hp.ne_dotDot]), if_neg (Nat.not_lt.2 hp.length_le)]

/-- The place for the last name of a path is the same on a disk that has the same directories and
links. -/
theorem slot_transfer {odd : OsError} (h : d.slot p odd = .ok l)
    (hw : e.workingDirectory = d.workingDirectory)
    (he : ∀ x n, d.node? x = some n → n.isDirectory ∨ n.isLink → e.node? x = some n) :
    e.slot p odd = .ok l := by
  obtain ⟨hv, name, here, hn, hp, hh, rfl⟩ := slot_eq_ok_iff.1 h
  obtain ⟨hf, hd⟩ := holder_eq_ok_iff.1 hh
  obtain ⟨n, hn', hd'⟩ := hasDirectory_iff.1 hd
  refine slot_eq_ok_iff.2 ⟨hv, name, here, hn, hp, holder_eq_ok_iff.2 ⟨?_, ?_⟩, rfl⟩
  · rw [follow_eq_ok_iff] at hf ⊢
    rw [hw]
    apply hf.transfer
    intro x n' hx hx'
    rcases hx' with hx' | hx' | rfl
    · exact he x n' hx (.inl hx')
    · exact he x n' hx (.inr hx')
    · rw [hn'] at hx
      cases hx
      exact he _ _ hn' (.inl hd')
  · exact hasDirectory_iff.2 ⟨n, he here n hn' (.inl hd'), hd'⟩

/-- A path leads to what stands at the place for its last name, unless that is a link; with a slash
at its end it asks for a directory. -/
theorem locate_of_slot {odd : OsError} {n : Node} (h : d.slot p odd = .ok l)
    (hn : d.node? l = some n) (hl : n.isLink = false) (hs : p.endsInSlash → n.isDirectory) :
    d.locate p = .ok l := by
  obtain ⟨hv, name, here, hlast, hp, hh, rfl⟩ := slot_eq_ok_iff.1 h
  obtain ⟨hf, hd⟩ := holder_eq_ok_iff.1 hh
  obtain ⟨n', hn', hd'⟩ := hasDirectory_iff.1 hd
  have hnames : p.names = p.names.dropLast ++ [name] := by
    obtain ⟨names, hnames⟩ := List.getLast?_eq_some_iff.1 hlast
    rw [hnames, List.dropLast_concat]
  -- from the directory on, the last name and the dot that stands for a slash need no links
  have htail :
      Leads d 0 here (name :: if p.endsInSlash then [Path.dot] else []) (name :: here) := by
    refine .down hn' hd' (beside_of_isPlain hp here) ?_
    split
    · next he => exact .down hn (hs he) (if_pos rfl) (.stay hn hl)
    · exact .stay hn hl
  refine locate_eq_ok_iff.2 ⟨hv, ?_⟩
  rw [follow_eq_ok_iff] at hf ⊢
  have hsteps : p.steps =
      p.names.dropLast ++ name :: (if p.endsInSlash then [Path.dot] else []) := by
    conv => lhs; rw [Path.steps, hnames]
    simp
  rw [hsteps]
  exact hf.append htail

/-- A path that leads somewhere has a place for its last name, if something can have that name. -/
theorem exists_slot_of_locate (odd : OsError) (h : d.locate p = .ok m) (hs : p.endsInSlash = false)
    {name : Name} (hlast : p.names.getLast? = some name) (hp : IsPlain name) :
    ∃ l, d.slot p odd = .ok l := by
  obtain ⟨hv, hf⟩ := locate_eq_ok_iff.1 h
  obtain ⟨front, hnames⟩ := List.getLast?_eq_some_iff.1 hlast
  rw [follow_eq_ok_iff, Path.steps, hs, if_neg Bool.false_ne_true, List.append_nil, hnames] at hf
  obtain ⟨here, hl, hd⟩ := hf.exists_of_concat
  refine ⟨name :: here, slot_eq_ok_iff.2 ⟨hv, name, here, hlast, hp, ?_, rfl⟩⟩
  rw [holder_eq_ok_iff, hnames, List.dropLast_concat, follow_eq_ok_iff]
  exact ⟨hl, hd⟩

end Disk
end Wheelwright
