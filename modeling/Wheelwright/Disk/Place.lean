import Wheelwright.Disk.Path
/-!
# Places

The places of a disk make up a tree: below every place there is one for each name, and a node stands
at finitely many of them. A walk goes down from place to place without a look back at the root, and
a change at one place leaves everything shared that is not on the way to it.

The main statements are `descend_alter_self` and `node_descend_alter_of_ne`: a change is seen at the
place that is changed, and, if it leaves alone what is below, nowhere else.
-/

namespace Wheelwright

/-- What can be found at a place. -/
inductive Node where
  /-- A directory; its children are the nodes one name further down. -/
  | directory (mode : Nat)
  /-- A regular file. -/
  | file (mode : Nat) (content : Bytes)
  /-- A symbolic link. -/
  | link (target : Path)
  /-- The device that swallows what is written and has nothing to read. -/
  | nullDevice
  deriving DecidableEq, Repr

/-- Whether the node is a directory. -/
def Node.isDirectory : Node → Bool
  | .directory _ => true
  | _ => false

/-- A place with what is below it: the node that stands there, if one does, and the places that
some names lead to. -/
structure Place where
  node : Option Node
  children : List (Name × Place)
  deriving Repr

namespace Place

/-- A place at which nothing stands, nor below it. -/
def empty : Place := ⟨none, []⟩

/-- The place one name further down. -/
def child (here : Place) (name : Name) : Place := (here.children.lookup name).getD empty

/-- The place that some names lead to. -/
def descend (here : Place) : List Name → Place
  | [] => here
  | name :: rest => (here.child name).descend rest

/-- The place with another one under a name. -/
def setChild (here : Place) (name : Name) (c : Place) : Place :=
  { here with children := (name, c) :: here.children.filter (·.1 ≠ name) }

/-- The place with another node, or with none. -/
def setNode (here : Place) (n : Option Node) : Place := { here with node := n }

@[simp] theorem children_setNode (here : Place) (n : Option Node) :
    (here.setNode n).children = here.children := rfl

/-- The place with a change where some names lead to. -/
def alter (change : Place → Place) (here : Place) : List Name → Place
  | [] => change here
  | name :: rest => here.setChild name ((here.child name).alter change rest)

/-! ## Where a change shows -/

@[simp] theorem child_setChild_self (here : Place) (name : Name) (c : Place) :
    (here.setChild name c).child name = c := by
  simp [setChild, child]

private theorem lookup_filter_of_ne {a b : Name} (hne : b ≠ a) (cs : List (Name × Place)) :
    (cs.filter (·.1 ≠ a)).lookup b = cs.lookup b := by
  induction cs with
  | nil => rfl
  | cons c cs ih =>
    obtain ⟨k, p⟩ := c
    by_cases h : k = a
    · have hk : (b == k) = false := by simpa [h] using hne
      rw [List.filter_cons_of_neg (by simpa using h), ih, List.lookup_cons, hk]
    · rw [List.filter_cons_of_pos (by simpa using h), List.lookup_cons, List.lookup_cons, ih]

theorem child_setChild_of_ne (here : Place) {a b : Name} (h : b ≠ a) (c : Place) :
    (here.setChild a c).child b = here.child b := by
  have hk : (b == a) = false := by simpa using h
  simp only [setChild, child, List.lookup_cons, hk]
  rw [lookup_filter_of_ne h]

/-- A walk can be broken off and taken up again. -/
theorem descend_append (here : Place) (p q : List Name) :
    here.descend (p ++ q) = (here.descend p).descend q := by
  induction p generalizing here with
  | nil => rfl
  | cons name p ih => exact ih _

/-- A change is seen at the place that is changed. -/
theorem descend_alter_self (change : Place → Place) (here : Place) (p : List Name) :
    (here.alter change p).descend p = change (here.descend p) := by
  induction p generalizing here with
  | nil => rfl
  | cons name p ih => simp only [alter, descend, child_setChild_self, ih]

/-- A change that leaves alone what is below is seen at one place only. -/
theorem node_descend_alter_of_ne {change : Place → Place}
    (hc : ∀ place, (change place).children = place.children) (here : Place) {p q : List Name}
    (hne : q ≠ p) : ((here.alter change p).descend q).node = (here.descend q).node := by
  induction p generalizing here q with
  | nil =>
    cases q with
    | nil => exact absurd rfl hne
    | cons b q => simp only [alter, descend, child, hc]
  | cons a p ih =>
    cases q with
    | nil => rfl
    | cons b q =>
      by_cases hb : b = a
      · subst hb
        simp only [alter, descend, child_setChild_self]
        exact ih _ fun h => hne (congrArg _ h)
      · simp only [alter, descend, child_setChild_of_ne here hb]

end Place
end Wheelwright
