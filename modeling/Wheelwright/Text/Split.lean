/-!
# Splitting at a separator

`pieces sep` cuts a list at every occurrence of `sep` and keeps empty pieces, `glue sep` puts the
separator back between pieces. Paths are cut at `/`, tags at `.`, texts at line ends.

The main statements are `glue_pieces` and `pieces_glue`: the two undo one another, the second for
pieces that do not hold the separator and of which there is at least one.
-/

namespace Wheelwright.Split

variable {α : Type}

/-- The pieces between the separators, at least one, empty ones included. -/
def pieces [DecidableEq α] (sep : α) : List α → List (List α)
  | [] => [[]]
  | x :: xs =>
    if x = sep then [] :: pieces sep xs
    else match pieces sep xs with
      | [] => [[x]]
      | p :: ps => (x :: p) :: ps

/-- The pieces with the separator between them. -/
def glue (sep : α) : List (List α) → List α
  | [] => []
  | [p] => p
  | p :: q :: ps => p ++ sep :: glue sep (q :: ps)

/-! ## The two undo one another -/

theorem glue_cons {sep : α} (p : List α) {ps : List (List α)} (h : ps ≠ []) :
    glue sep (p :: ps) = p ++ sep :: glue sep ps := by
  cases ps with
  | nil => exact absurd rfl h
  | cons q qs => rfl

/-- Pieces that make up nothing are one empty piece. -/
theorem eq_singleton_of_glue_eq_nil {sep : α} {ps : List (List α)} (hp : ps ≠ [])
    (h : glue sep ps = []) : ps = [[]] := by
  match ps with
  | [] => exact absurd rfl hp
  | [p] => exact congrArg ([·]) h
  | p :: q :: ps => simp [glue] at h

/-- Pieces after pieces, with one more separator between the two. -/
theorem glue_append (sep : α) {ps qs : List (List α)} (hp : ps ≠ []) (hq : qs ≠ []) :
    glue sep (ps ++ qs) = glue sep ps ++ sep :: glue sep qs := by
  induction ps with
  | nil => exact absurd rfl hp
  | cons p ps ih =>
    cases ps with
    | nil => exact glue_cons p hq
    | cons r ps =>
      rw [List.cons_append, glue_cons p (by simp), ih (by simp), glue_cons p (by simp),
        List.append_assoc, List.cons_append]

variable [DecidableEq α]

theorem pieces_ne_nil (sep : α) (xs : List α) : pieces sep xs ≠ [] := by
  cases xs with
  | nil => simp [pieces]
  | cons x xs => unfold pieces; split <;> (try split) <;> simp

/-- There is one piece more than there are separators. -/
theorem length_pieces (sep : α) (xs : List α) :
    (pieces sep xs).length = xs.count sep + 1 := by
  induction xs with
  | nil => rfl
  | cons x xs ih =>
    by_cases hx : x = sep
    · rw [pieces, if_pos hx, List.length_cons, ih, hx, List.count_cons_self]
    · rw [pieces, if_neg hx, List.count_cons_of_ne hx, ← ih]
      split
      · next h => exact absurd h (pieces_ne_nil sep xs)
      · next p ps h => rw [h, List.length_cons, List.length_cons]

theorem length_le_of_mem_pieces {sep : α} {xs p : List α} (h : p ∈ pieces sep xs) :
    p.length ≤ xs.length := by
  induction xs generalizing p with
  | nil => simp_all [pieces]
  | cons x xs ih =>
    rw [List.length_cons]
    unfold pieces at h
    split at h
    · rcases List.mem_cons.1 h with rfl | h
      · exact Nat.zero_le _
      · exact Nat.le_succ_of_le (ih h)
    · split at h
      · rw [List.mem_singleton.1 h]
        exact Nat.succ_le_succ (Nat.zero_le _)
      · next q qs hq =>
        rcases List.mem_cons.1 h with rfl | h
        · have hq' : q.length ≤ xs.length := ih (by simp [hq])
          exact Nat.succ_le_succ hq'
        · exact Nat.le_succ_of_le (ih (by simp [hq, h]))

/-- Between separators stands everything else. -/
theorem not_mem_of_mem_pieces {sep : α} {xs p : List α} (h : p ∈ pieces sep xs) : sep ∉ p := by
  induction xs generalizing p with
  | nil => simp_all [pieces]
  | cons x xs ih =>
    unfold pieces at h
    split at h
    · rcases List.mem_cons.1 h with rfl | h
      · simp
      · exact ih h
    · next hx =>
      split at h
      · rcases List.mem_singleton.1 h with rfl
        simpa using Ne.symm hx
      · next q qs hq =>
        rcases List.mem_cons.1 h with rfl | h
        · have hq' : sep ∉ q := ih (by simp [hq])
          simpa using ⟨Ne.symm hx, hq'⟩
        · exact ih (by simp [hq, h])

@[simp] theorem glue_pieces (sep : α) (xs : List α) : glue sep (pieces sep xs) = xs := by
  induction xs with
  | nil => rfl
  | cons x xs ih =>
    unfold pieces
    split
    · next hx => rw [glue_cons [] (pieces_ne_nil sep xs), ih, hx, List.nil_append]
    · split
      · next h => exact absurd h (pieces_ne_nil sep xs)
      · next p ps h =>
        rw [h] at ih
        cases ps with
        | nil => simp_all [glue]
        | cons q qs => simp_all [glue]

/-- Nothing is cut where the separator does not stand. -/
theorem pieces_of_not_mem {sep : α} {xs : List α} (h : sep ∉ xs) : pieces sep xs = [xs] := by
  induction xs with
  | nil => rfl
  | cons x xs ih =>
    simp only [List.mem_cons, not_or] at h
    rw [pieces, if_neg (Ne.symm h.1), ih h.2]

/-- The first piece ends where the first separator stands. -/
theorem pieces_append_cons {sep : α} {p : List α} (h : sep ∉ p) (xs : List α) :
    pieces sep (p ++ sep :: xs) = p :: pieces sep xs := by
  induction p with
  | nil => simp [pieces]
  | cons y p ih =>
    simp only [List.mem_cons, not_or] at h
    rw [List.cons_append, pieces, if_neg (Ne.symm h.1), ih h.2]

/-- What stands before the first separator and what stands after it are told apart. -/
theorem append_cons_inj {sep : α} {p q xs ys : List α} (hp : sep ∉ p) (hq : sep ∉ q)
    (h : p ++ sep :: xs = q ++ sep :: ys) : p = q ∧ xs = ys := by
  have hc := congrArg (pieces sep) h
  rw [pieces_append_cons hp, pieces_append_cons hq, List.cons.injEq] at hc
  refine ⟨hc.1, ?_⟩
  rw [← glue_pieces sep xs, hc.2, glue_pieces]

/-- A separator cuts between the pieces on its two sides. -/
theorem pieces_append_sep (sep : α) (xs ys : List α) :
    pieces sep (xs ++ sep :: ys) = pieces sep xs ++ pieces sep ys := by
  induction xs with
  | nil => simp [pieces]
  | cons x xs ih =>
    by_cases hx : x = sep
    · simp [pieces, hx, ih]
    · have hn := pieces_ne_nil sep xs
      rw [List.cons_append, pieces, pieces, if_neg hx, if_neg hx, ih]
      cases hp : pieces sep xs with
      | nil => exact absurd hp hn
      | cons p ps => rfl

/-- The last piece is what stands behind the last separator, or everything if there is none. -/
theorem getLast?_pieces_iff {sep : α} {xs p : List α} :
    (pieces sep xs).getLast? = some p ↔
      sep ∉ p ∧ (xs = p ∨ ∃ front, xs = front ++ sep :: p) := by
  constructor
  · intro h
    refine ⟨not_mem_of_mem_pieces (List.mem_of_getLast? h), ?_⟩
    obtain ⟨front, hf⟩ := List.getLast?_eq_some_iff.1 h
    have hg := glue_pieces sep xs
    rw [hf] at hg
    cases front with
    | nil => exact .inl hg.symm
    | cons q qs =>
      rw [glue_append sep (List.cons_ne_nil q qs) (List.cons_ne_nil p [])] at hg
      exact .inr ⟨_, hg.symm⟩
  · rintro ⟨hs, rfl | ⟨front, rfl⟩⟩
    · rw [pieces_of_not_mem hs]
      rfl
    · rw [pieces_append_sep, pieces_of_not_mem hs, List.getLast?_concat]

theorem pieces_glue {sep : α} {ps : List (List α)} (hne : ps ≠ []) (h : ∀ p ∈ ps, sep ∉ p) :
    pieces sep (glue sep ps) = ps := by
  induction ps with
  | nil => exact absurd rfl hne
  | cons p ps ih =>
    have hp := h p (by simp)
    cases ps with
    | nil => exact pieces_of_not_mem hp
    | cons q qs =>
      rw [glue_cons p (by simp), pieces_append_cons hp,
        ih (by simp) (fun r hr => h r (List.mem_cons_of_mem _ hr))]

end Wheelwright.Split
