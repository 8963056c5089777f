import Wheelwright.Json.Shape
/-!
# Fields in order

An object that is made of some fields has them in the order of their names (`inOrder_sortFields`),
and fields that are in order stay as they are (`sortFields_of_inOrder`). What holds of the values
of all fields holds of the object: `isStandard_ofFields` and `height_ofFields_le`.
-/

namespace Wheelwright.Json

variable {name : String} {value : Json} {f g : String × Json} {fields rest : List (String × Json)}

/-- In order is what begins with a name before that of the first of some fields in order. -/
theorem inOrder_cons_iff : inOrder (f :: rest) = true ↔
    (∀ g ∈ rest.head?, f.1 < g.1) ∧ inOrder rest = true := by
  cases rest with
  | nil => simp [inOrder]
  | cons g rest => simp [inOrder]

/-- In order, each name is before all that follow. -/
theorem inOrder_iff_pairwise :
    inOrder fields = true ↔ fields.Pairwise (fun f g => f.1 < g.1) := by
  induction fields with
  | nil => simp [inOrder]
  | cons f rest ih =>
    rw [inOrder_cons_iff, ih, List.pairwise_cons]
    constructor
    · rintro ⟨hhead, hrest⟩
      refine ⟨fun g hg => ?_, hrest⟩
      cases rest with
      | nil => cases hg
      | cons first rest =>
        have hfirst := hhead first rfl
        rcases List.mem_cons.1 hg with rfl | hg
        · exact hfirst
        · exact String.lt_trans hfirst ((List.pairwise_cons.1 hrest).1 g hg)
    · rintro ⟨hall, hrest⟩
      exact ⟨fun g hg => hall g (List.mem_of_mem_head? hg), hrest⟩

/-! ## Fields that are set -/

/-- The first field after one was set is that one or the one that was first. -/
theorem head?_setField (h : g ∈ (setField name value fields).head?) :
    g.1 = name ∨ g ∈ fields.head? := by
  cases fields with
  | nil =>
    cases h
    exact .inl rfl
  | cons f rest =>
    obtain ⟨n, v⟩ := f
    unfold setField at h
    split at h
    · cases h
      exact .inl rfl
    · split at h
      · cases h
        exact .inl rfl
      · cases h
        exact .inr rfl

theorem inOrder_setField (h : inOrder fields = true) :
    inOrder (setField name value fields) = true := by
  induction fields with
  | nil => rfl
  | cons f rest ih =>
    obtain ⟨n, v⟩ := f
    obtain ⟨hhead, hrest⟩ := inOrder_cons_iff.1 h
    unfold setField
    split
    · next hlt =>
      refine inOrder_cons_iff.2 ⟨?_, h⟩
      rintro g ⟨⟩
      exact hlt
    · next hlt =>
      split
      · next hn =>
        subst hn
        exact inOrder_cons_iff.2 ⟨hhead, hrest⟩
      · next hn =>
        refine inOrder_cons_iff.2 ⟨fun g hg => ?_, ih hrest⟩
        rcases head?_setField hg with hg | hg
        · rw [hg]
          exact Std.lt_of_le_of_ne (Std.not_lt.1 hlt) (Ne.symm hn)
        · exact hhead g hg

/-- What setting a field keeps is kept by sorting. -/
theorem sortFields_induction {P : List (String × Json) → Prop} (fields : List (String × Json))
    (hnil : P []) (hset : ∀ f ∈ fields, ∀ sorted, P sorted → P (setField f.1 f.2 sorted)) :
    P (sortFields fields) := by
  have h : ∀ sorted, P sorted →
      P (fields.foldl (fun sorted f => setField f.1 f.2 sorted) sorted) := by
    induction fields with
    | nil => exact fun _ hs => hs
    | cons f rest ih =>
      intro sorted hs
      refine ih (fun g hg => hset g (List.mem_cons_of_mem f hg)) _ ?_
      exact hset f List.mem_cons_self sorted hs
  exact h [] hnil

/-- Sorted fields are in order. -/
theorem inOrder_sortFields (fields : List (String × Json)) :
    inOrder (sortFields fields) = true :=
  sortFields_induction (P := (inOrder · = true)) fields rfl fun _ _ _ => inOrder_setField

/-- A field whose name comes after all others is set at the end. -/
theorem setField_of_forall_lt {sorted : List (String × Json)}
    (h : ∀ g ∈ sorted, g.1 < f.1) : setField f.1 f.2 sorted = sorted ++ [f] := by
  induction sorted with
  | nil => rfl
  | cons g sorted ih =>
    obtain ⟨n, v⟩ := g
    have hlt : n < f.1 := h _ List.mem_cons_self
    have hne : f.1 ≠ n := by
      rintro rfl
      exact String.lt_irrefl _ hlt
    unfold setField
    rw [if_neg (String.lt_asymm hlt), if_neg hne, ih fun g hg => h g (List.mem_cons_of_mem _ hg)]
    rfl

/-- Fields in order stay as they are. -/
theorem sortFields_of_inOrder (h : inOrder fields = true) : sortFields fields = fields := by
  have hfold : ∀ rest sorted : List (String × Json), inOrder (sorted ++ rest) = true →
      rest.foldl (fun sorted f => setField f.1 f.2 sorted) sorted = sorted ++ rest := by
    intro rest
    induction rest with
    | nil => simp
    | cons f rest ih =>
      intro sorted hs
      have hpairs := List.pairwise_append.1 (inOrder_iff_pairwise.1 hs)
      have hf : ∀ g ∈ sorted, g.1 < f.1 := fun g hg => hpairs.2.2 g hg f List.mem_cons_self
      rw [List.foldl_cons, setField_of_forall_lt hf, ih _ (by simpa using hs)]
      simp
  exact hfold fields [] h

/-! ## Values of fields -/

theorem fieldsStandard_iff :
    fieldsStandard fields = true ↔ ∀ f ∈ fields, f.2.isStandard = true := by
  induction fields with
  | nil => simp [fieldsStandard]
  | cons f rest ih => rw [fieldsStandard, Bool.and_eq_true, ih, List.forall_mem_cons]

theorem fieldsStandard_setField (hf : fieldsStandard fields = true)
    (hv : value.isStandard = true) : fieldsStandard (setField name value fields) = true := by
  induction fields with
  | nil => simp [setField, fieldsStandard, hv]
  | cons f rest ih =>
    obtain ⟨n, v⟩ := f
    simp only [fieldsStandard, Bool.and_eq_true] at hf
    unfold setField
    split
    · simp [fieldsStandard, hv, hf]
    · split
      · simp [fieldsStandard, hv, hf]
      · simp [fieldsStandard, hf, ih hf.2]

theorem fieldsHeight_setField_le (name : String) (value : Json) (fields : List (String × Json)) :
    fieldsHeight (setField name value fields) ≤ max value.height (fieldsHeight fields) := by
  induction fields with
  | nil => simp [setField, fieldsHeight]
  | cons f rest ih =>
    obtain ⟨n, v⟩ := f
    unfold setField
    split
    · simp [fieldsHeight]
    · split
      · simp only [fieldsHeight]
        omega
      · simp only [fieldsHeight]
        omega

/-- An object made of fields with standard values is standard. -/
theorem isStandard_ofFields (h : ∀ f ∈ fields, f.2.isStandard = true) :
    (ofFields fields).isStandard = true := by
  have hs : fieldsStandard (sortFields fields) = true :=
    sortFields_induction (P := (fieldsStandard · = true)) fields rfl
      fun f hf _ hs => fieldsStandard_setField hs (h f hf)
  rw [ofFields, isStandard, inOrder_sortFields, hs]
  rfl

/-- An object nests one container more than its values. -/
theorem height_ofFields_le {k : Nat} (h : ∀ f ∈ fields, f.2.height ≤ k) :
    (ofFields fields).height ≤ k + 1 := by
  have hs : fieldsHeight (sortFields fields) ≤ k :=
    sortFields_induction (P := (fieldsHeight · ≤ k)) fields (Nat.zero_le k)
      fun f hf sorted hs => Nat.le_trans (fieldsHeight_setField_le f.1 f.2 sorted)
        (Nat.max_le.2 ⟨h f hf, hs⟩)
  exact Nat.succ_le_succ hs

end Wheelwright.Json
