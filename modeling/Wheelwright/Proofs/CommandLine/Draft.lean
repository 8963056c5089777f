import Wheelwright.CommandLine
import Wheelwright.Proofs.Text.Utf8
/-!
# What items come to

Items are put together one after another, but what comes of them does not depend on their order: a
draft that could be made holds the value of every option that was given, every switch that was
there, and how often `-v` was said (`Draft.Says`), and it could be made exactly if nothing was said
twice that may be said once, every value is one, and nobody asked for help (`Orderly`). The main
statement is `exists_addAll_iff`.
-/

namespace Wheelwright.CommandLine

/-! ## Items that can go together -/

/-- What an item says, without its value. -/
def Item.meaning : Item → Meaning
  | .value k _ => .key k
  | .switch s => .switch s
  | .verbose => .verbose
  | .help => .help

/-- How often something is said. -/
def occurrences (items : List Item) (m : Meaning) : Nat := (items.map Item.meaning).count m

/-- A value that an option can have: a path has a byte, a text is text. -/
def Key.Accepts (k : Key) (given : Bytes) : Prop :=
  if k.takesPath then given ≠ [] else ∃ s, Utf8.encode s = given

/-- Nothing but `-v` is said twice, every option has a value that it can have, and nobody asks for
help. -/
structure Orderly (items : List Item) : Prop where
  once : ∀ m, m ≠ .verbose → occurrences items m ≤ 1
  valid : ∀ k given, .value k given ∈ items → k.Accepts given
  noHelp : .help ∉ items

section items

variable {items before after : List Item} {item : Item} {m : Meaning} {k : Key} {s : Switch}
  {given : Bytes}

theorem occurrences_append (before after : List Item) (m : Meaning) :
    occurrences (before ++ after) m = occurrences before m + occurrences after m := by
  simp [occurrences]

theorem occurrences_pos_iff : 0 < occurrences items m ↔ ∃ item ∈ items, item.meaning = m := by
  rw [occurrences, List.count_pos_iff, List.mem_map]

theorem occurrences_key_pos_iff :
    0 < occurrences items (.key k) ↔ ∃ given, .value k given ∈ items := by
  rw [occurrences_pos_iff]
  constructor
  · rintro ⟨item, hm, hk⟩
    cases item with
    | value k' given =>
      cases hk
      exact ⟨given, hm⟩
    | switch s => cases hk
    | verbose => cases hk
    | help => cases hk
  · rintro ⟨given, hm⟩
    exact ⟨_, hm, rfl⟩

theorem occurrences_switch_pos_iff : 0 < occurrences items (.switch s) ↔ .switch s ∈ items := by
  rw [occurrences_pos_iff]
  constructor
  · rintro ⟨item, hm, hs⟩
    cases item with
    | value k given => cases hs
    | switch s' =>
      cases hs
      exact hm
    | verbose => cases hs
    | help => cases hs
  · intro hm
    exact ⟨_, hm, rfl⟩

theorem Orderly.nil : Orderly [] where
  once := fun _ _ => Nat.zero_le 1
  valid := nofun
  noHelp := nofun

/-- What goes together goes together without what comes after it. -/
theorem Orderly.of_append (h : Orderly (before ++ after)) : Orderly before where
  once := by
    intro m hm
    have := h.once m hm
    rw [occurrences_append] at this
    omega
  valid := fun k given hm => h.valid k given (List.mem_append_left after hm)
  noHelp := fun hm => h.noHelp (List.mem_append_left after hm)

/-- An item can come after others if it is not there already, unless it is `-v`, has a value that it
can have, if any, and is no call for help. -/
theorem orderly_concat_iff : Orderly (before ++ [item]) ↔ Orderly before ∧
    (item.meaning ≠ .verbose → occurrences before item.meaning = 0) ∧
      (∀ k given, item = .value k given → k.Accepts given) ∧ item ≠ .help := by
  constructor
  · intro h
    refine ⟨h.of_append, fun hm => ?_, ?_, ?_⟩
    · have honce := h.once _ hm
      rw [occurrences_append] at honce
      simp [occurrences] at honce ⊢
      omega
    · rintro k given rfl
      exact h.valid k given (by simp)
    · rintro rfl
      exact h.noHelp (by simp)
  · rintro ⟨h, honce, hvalid, hhelp⟩
    refine ⟨fun m hm => ?_, fun k given hmem => ?_, fun hmem => ?_⟩
    · have hbefore := h.once m hm
      rw [occurrences_append]
      by_cases hi : item.meaning = m
      · subst hi
        rw [honce hm]
        simp [occurrences]
      · simpa [occurrences, hi] using hbefore
    · rcases List.mem_append.1 hmem with hmem | hmem
      · exact h.valid k given hmem
      · exact hvalid k given (List.mem_singleton.1 hmem).symm
    · rcases List.mem_append.1 hmem with hmem | hmem
      · exact h.noHelp hmem
      · exact hhelp (List.mem_singleton.1 hmem).symm

/-- Whether items go together is no matter of their order. -/
theorem Orderly.perm (h : Orderly before) (hp : before.Perm after) : Orderly after where
  once := by
    intro m hm
    rw [occurrences, ← (hp.map Item.meaning).count_eq]
    exact h.once m hm
  valid := fun k given hm => h.valid k given (hp.mem_iff.2 hm)
  noHelp := fun hm => h.noHelp (hp.mem_iff.2 hm)

end items

/-! ## Values -/

namespace Value

variable {k : Key} {given : Bytes} {v : Value}

/-- Bytes that an option accepts are a value for it, and others are not. -/
theorem exists_ofBytes_iff : (∃ v, ofBytes k given = .ok v) ↔ k.Accepts given := by
  unfold ofBytes Key.Accepts
  by_cases hk : k.takesPath = true
  · by_cases hg : given = []
    · simp [hk, hg]
    · simp [hk, hg]
  · rw [if_neg hk, if_neg hk]
    simp only [← Utf8.decode?_eq_some_iff]
    cases Utf8.decode? given <;> simp

/-- A value for an option is of the option's kind. -/
theorem kind_of_ofBytes (h : ofBytes k given = .ok v) :
    if k.takesPath then v = .path ⟨given⟩ else ∃ s, v = .text s := by
  unfold ofBytes at h
  split at h
  · next hk =>
    split at h
    · cases h
    · cases h
      rw [if_pos hk]
  · next hk =>
    rw [if_neg hk]
    split at h
    · cases h
      exact ⟨_, rfl⟩
    · cases h

end Value

/-! ## Drafts -/

namespace Draft

/-- The draft holds what the items say. -/
structure Says (d : Draft) (items : List Item) : Prop where
  value : ∀ k v, d.values.lookup k = some v ↔
    ∃ given, .value k given ∈ items ∧ Value.ofBytes k given = .ok v
  switch : ∀ s, s ∈ d.switches ↔ .switch s ∈ items
  verbosity : d.verbosity = items.count .verbose

variable {d e : Draft} {before items : List Item} {item : Item} {k : Key}

theorem says_empty : empty.Says [] where
  value := by simp [empty]
  switch := by simp [empty]
  verbosity := rfl

/-- Whether a draft holds what items say is no matter of their order. -/
theorem Says.perm (h : d.Says before) (hp : before.Perm items) : d.Says items where
  value := by
    intro k v
    simp only [h.value, hp.mem_iff]
  switch := by
    intro s
    rw [h.switch, hp.mem_iff]
  verbosity := by rw [h.verbosity, hp.count_eq]

/-- An option was given exactly if there is an item for it. -/
theorem Says.has_iff (h : d.Says items) (ho : Orderly items) :
    d.has k = true ↔ 0 < occurrences items (.key k) := by
  rw [has, Option.isSome_iff_exists, occurrences_key_pos_iff]
  constructor
  · rintro ⟨v, hv⟩
    obtain ⟨given, hm, -⟩ := (h.value k v).1 hv
    exact ⟨given, hm⟩
  · rintro ⟨given, hm⟩
    obtain ⟨v, hv⟩ := Value.exists_ofBytes_iff.2 (ho.valid k given hm)
    exact ⟨v, (h.value k v).2 ⟨given, hm, hv⟩⟩

theorem Says.switches_iff (h : d.Says items) {s : Switch} :
    d.switches.contains s = true ↔ 0 < occurrences items (.switch s) := by
  rw [List.contains_iff_mem, h.switch, occurrences_switch_pos_iff]

theorem add_value_eq_ok_iff {given : Bytes} : d.add (.value k given) = .ok e ↔
    d.has k = false ∧ ∃ v, Value.ofBytes k given = .ok v ∧
      e = { d with values := (k, v) :: d.values } := by
  simp only [add]
  cases hk : d.has k with
  | true => simp
  | false => cases hv : Value.ofBytes k given <;> simp [Except.map, eq_comm]

theorem add_switch_eq_ok_iff {s : Switch} : d.add (.switch s) = .ok e ↔
    s ∉ d.switches ∧ e = { d with switches := s :: d.switches } := by
  simp only [add, List.contains_iff_mem]
  by_cases hs : s ∈ d.switches <;> simp [hs, eq_comm]

/-- A draft with one more item holds what it says too. -/
theorem Says.add (h : d.Says before) (ha : d.add item = .ok e) : e.Says (before ++ [item]) := by
  cases item with
  | value k given =>
    obtain ⟨hk, v, hv, rfl⟩ := add_value_eq_ok_iff.1 ha
    refine ⟨fun k' v' => ?_, ?_, ?_⟩
    · by_cases hk' : k' = k
      · subst hk'
        -- the option was not given before
        have hnone : ∀ given' v', .value k' given' ∈ before → Value.ofBytes k' given' ≠ .ok v' := by
          intro given' v' hm hv'
          have hl := (h.value k' v').2 ⟨given', hm, hv'⟩
          rw [has, hl] at hk
          cases hk
        rw [List.lookup_cons_self]
        constructor
        · rintro ⟨⟩
          exact ⟨given, by simp, hv⟩
        · rintro ⟨given', hm, hv'⟩
          rcases List.mem_append.1 hm with hm | hm
          · exact absurd hv' (hnone given' v' hm)
          · cases List.mem_singleton.1 hm
            rw [Except.ok.inj (hv.symm.trans hv')]
      · have hne : (k' == k) = false := by simpa using hk'
        simp [List.lookup_cons, hne, hk', h.value]
    · simpa using h.switch
    · simpa using h.verbosity
  | switch s =>
    obtain ⟨-, rfl⟩ := add_switch_eq_ok_iff.1 ha
    refine ⟨?_, fun s' => ?_, ?_⟩
    · simpa using h.value
    · simp [h.switch, or_comm]
    · simpa using h.verbosity
  | verbose =>
    cases ha
    refine ⟨?_, ?_, ?_⟩
    · simpa using h.value
    · simpa using h.switch
    · simpa using h.verbosity
  | help => cases ha

/-- An item can be added exactly if it can come after the others. -/
theorem Says.exists_add_iff (h : d.Says before) (ho : Orderly before) :
    (∃ e, d.add item = .ok e) ↔ Orderly (before ++ [item]) := by
  rw [orderly_concat_iff]
  cases item with
  | value k given =>
    have hhas : d.has k = false ↔ occurrences before (.key k) = 0 := by
      rw [← Bool.not_eq_true, h.has_iff ho, Nat.pos_iff_ne_zero, Classical.not_not]
    simp only [add_value_eq_ok_iff, hhas]
    constructor
    · rintro ⟨e, hk, v, hv, -⟩
      refine ⟨ho, fun _ => hk, ?_, nofun⟩
      rintro k' given' ⟨⟩
      exact Value.exists_ofBytes_iff.1 ⟨v, hv⟩
    · rintro ⟨-, hk, hvalid, -⟩
      obtain ⟨v, hv⟩ := Value.exists_ofBytes_iff.2 (hvalid k given rfl)
      exact ⟨_, hk nofun, v, hv, rfl⟩
  | switch s =>
    have hswitch : s ∉ d.switches ↔ occurrences before (.switch s) = 0 := by
      rw [h.switch, ← occurrences_switch_pos_iff, Nat.pos_iff_ne_zero, Classical.not_not]
    simp only [add_switch_eq_ok_iff, hswitch]
    constructor
    · rintro ⟨e, hs, -⟩
      exact ⟨ho, fun _ => hs, nofun, nofun⟩
    · rintro ⟨-, hs, -⟩
      exact ⟨_, hs nofun, rfl⟩
  | verbose =>
    constructor
    · intro
      exact ⟨ho, fun hm => absurd rfl hm, nofun, nofun⟩
    · intro
      exact ⟨_, rfl⟩
  | help =>
    constructor
    · rintro ⟨e, he⟩
      cases he
    · rintro ⟨-, -, -, hhelp⟩
      exact absurd rfl hhelp

/-- A draft with more items holds what they say too. -/
theorem Says.addAll (h : d.Says before) (ha : d.addAll items = .ok e) :
    e.Says (before ++ items) := by
  induction items generalizing d before with
  | nil =>
    cases ha
    rwa [List.append_nil]
  | cons item items ih =>
    unfold Draft.addAll at ha
    split at ha
    · next d' hd =>
      have hrest := ih (h.add hd) ha
      rwa [List.append_assoc] at hrest
    · cases ha

/-- Items can be put together exactly if they go together with what there is. -/
theorem Says.exists_addAll_iff (h : d.Says before) (ho : Orderly before) :
    (∃ e, d.addAll items = .ok e) ↔ Orderly (before ++ items) := by
  induction items generalizing d before with
  | nil => simp [Draft.addAll, ho]
  | cons item items ih =>
    unfold Draft.addAll
    rw [← List.singleton_append, ← List.append_assoc]
    cases ha : d.add item with
    | ok e =>
      have hadd := (h.exists_add_iff ho).1 ⟨e, ha⟩
      exact ih (h.add ha) hadd
    | error error =>
      have hnot : ¬Orderly (before ++ [item]) := by
        rw [← h.exists_add_iff ho, ha]
        simp
      constructor
      · rintro ⟨e, he⟩
        cases he
      · intro hall
        exact absurd hall.of_append hnot

end Draft

/-- Items can be put together exactly if they are orderly. -/
theorem exists_addAll_iff {items : List Item} :
    (∃ d, Draft.empty.addAll items = .ok d) ↔ Orderly items :=
  Draft.says_empty.exists_addAll_iff .nil

end Wheelwright.CommandLine
