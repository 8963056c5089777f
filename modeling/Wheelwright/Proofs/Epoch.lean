import Mathlib.Algebra.Group.Int.Defs
import Wheelwright.Config
/-!
# Points in time that can be read

A time is set by a decimal number of 64 bits, with a sign or without, in any white space. Digits are
read from the left, and reading stops as soon as the number is too large; as it only grows, it stops
exactly if the whole number is too large (`readDigits_eq_ok_iff`). With a minus the limit is one
more than without. So what can be read is said without a word about reading (`Denotes`,
`read_eq_ok_iff`), and zeros in front do not count (`spells_decimal`).

The main statement is `epoch_ofEnvironment`.
-/

namespace Wheelwright.Epoch

/-! ## Digits up to a limit -/

/-- The number read so far is at most the whole. -/
theorem le_ofDigitChars (cs : List Char) (n : Nat) : n ≤ Nat.ofDigitChars 10 cs n := by
  induction cs generalizing n with
  | nil => exact Nat.le_refl n
  | cons c cs ih =>
    rw [Nat.ofDigitChars_cons]
    exact Nat.le_trans (by omega) (ih _)

theorem digit?_eq_some_iff {c : Char} {d : Nat} :
    digit? c = some d ↔ c.isDigit = true ∧ d = c.toNat - 48 := by
  unfold digit?
  split
  · next h => simp [h, eq_comm]
  · next h => simp [h]

/-- Digits are read if nothing else stands among them and their number keeps to the limit. -/
theorem readDigits_eq_ok_iff {limit : Nat} {overflow : EpochError} {cs : List Char} {n m : Nat}
    (hn : n ≤ limit) : readDigits limit overflow n cs = .ok m ↔
      (∀ c ∈ cs, c.isDigit = true) ∧ m = Nat.ofDigitChars 10 cs n ∧ m ≤ limit := by
  induction cs generalizing n with
  | nil =>
    rw [readDigits, Nat.ofDigitChars_nil]
    constructor
    · rintro ⟨⟩
      exact ⟨by simp, rfl, hn⟩
    · rintro ⟨-, rfl, -⟩
      rfl
  | cons c cs ih =>
    rw [readDigits, Nat.ofDigitChars_cons, List.forall_mem_cons]
    cases hd : digit? c with
    | none =>
      have hc : ¬ c.isDigit = true := by
        intro hc
        rw [digit?, if_pos hc] at hd
        cases hd
      simp [hc]
    | some d =>
      obtain ⟨hc, rfl⟩ := digit?_eq_some_iff.1 hd
      have hnext : n * 10 + (c.toNat - 48) = 10 * n + (c.toNat - '0'.toNat) := by
        rw [Nat.mul_comm]
        rfl
      simp only [hc, true_and, hnext]
      split
      · next hlarge =>
        -- the number only grows, so it stays too large
        have hle := le_ofDigitChars cs (10 * n + (c.toNat - '0'.toNat))
        constructor
        · rintro ⟨⟩
        · rintro ⟨-, rfl, hm⟩
          omega
      · next hsmall => exact ih (by omega)

/-! ## Numbers with a sign -/

theorem spells_plus_iff {ds : List Char} {n : Int} : Spells ('+' :: ds) n ↔
    ds ≠ [] ∧ (∀ c ∈ ds, c.isDigit = true) ∧ n = Nat.ofDigitChars 10 ds 0 := by
  constructor
  · intro h
    cases h with
    | unsigned hne hd => exact absurd (hd '+' List.mem_cons_self) (by decide)
    | plus hne hd => exact ⟨hne, hd, rfl⟩
  · rintro ⟨hne, hd, rfl⟩
    exact .plus hne hd

theorem spells_minus_iff {ds : List Char} {n : Int} : Spells ('-' :: ds) n ↔
    ds ≠ [] ∧ (∀ c ∈ ds, c.isDigit = true) ∧ n = -Nat.ofDigitChars 10 ds 0 := by
  constructor
  · intro h
    cases h with
    | unsigned hne hd => exact absurd (hd '-' List.mem_cons_self) (by decide)
    | minus hne hd => exact ⟨hne, hd, rfl⟩
  · rintro ⟨hne, hd, rfl⟩
    exact .minus hne hd

theorem spells_unsigned_iff {cs : List Char} {n : Int} (hplus : ∀ ds, cs ≠ '+' :: ds)
    (hminus : ∀ ds, cs ≠ '-' :: ds) : Spells cs n ↔
      cs ≠ [] ∧ (∀ c ∈ cs, c.isDigit = true) ∧ n = Nat.ofDigitChars 10 cs 0 := by
  constructor
  · intro h
    cases h with
    | unsigned hne hd => exact ⟨hne, hd, rfl⟩
    | plus hne hd => exact absurd rfl (hplus _)
    | minus hne hd => exact absurd rfl (hminus _)
  · rintro ⟨hne, hd, rfl⟩
    exact .unsigned hne hd

/-- What is read of the digits behind a sign, or of digits alone: the limit is that of 64 bits. -/
theorem map_readDigits_eq_ok_iff {limit : Nat} {overflow : EpochError} {cs : List Char}
    {f : Nat → Int} {n : Int} (hne : cs ≠ [])
    (hlimit : ∀ m, m ≤ limit ↔ -2 ^ 63 ≤ f m ∧ f m < 2 ^ 63) :
    (readDigits limit overflow 0 cs).map f = .ok n ↔
      (cs ≠ [] ∧ (∀ c ∈ cs, c.isDigit = true) ∧ n = f (Nat.ofDigitChars 10 cs 0)) ∧
        -2 ^ 63 ≤ n ∧ n < 2 ^ 63 := by
  constructor
  · intro h
    cases hr : readDigits limit overflow 0 cs with
    | error cause =>
      rw [hr] at h
      cases h
    | ok m =>
      rw [hr] at h
      cases h
      obtain ⟨hd, rfl, hm⟩ := (readDigits_eq_ok_iff (Nat.zero_le _)).1 hr
      exact ⟨⟨hne, hd, rfl⟩, (hlimit _).1 hm⟩
  · rintro ⟨⟨-, hd, rfl⟩, hm⟩
    rw [(readDigits_eq_ok_iff (Nat.zero_le _)).2 ⟨hd, rfl, (hlimit _).2 hm⟩]
    rfl

theorem le_largest_iff {n : Nat} : n ≤ largest ↔ -2 ^ 63 ≤ (n : Int) ∧ (n : Int) < 2 ^ 63 := by
  unfold largest
  omega

theorem le_smallest_iff {n : Nat} :
    n ≤ smallest ↔ -2 ^ 63 ≤ -(n : Int) ∧ -(n : Int) < 2 ^ 63 := by
  unfold smallest
  omega

/-- A number is read if it is spelled and has 64 bits. -/
theorem readNumber_eq_ok_iff {cs : List Char} {n : Int} :
    readNumber cs = .ok n ↔ Spells cs n ∧ -2 ^ 63 ≤ n ∧ n < 2 ^ 63 := by
  unfold readNumber
  split
  · constructor
    · rintro ⟨⟩
    · rintro ⟨h, -⟩
      exact absurd rfl ((spells_unsigned_iff (by simp) (by simp)).1 h).1
  · constructor
    · rintro ⟨⟩
    · rintro ⟨h, -⟩
      exact absurd rfl (spells_plus_iff.1 h).1
  · constructor
    · rintro ⟨⟩
    · rintro ⟨h, -⟩
      exact absurd rfl (spells_minus_iff.1 h).1
  · next ds hne =>
    rw [spells_plus_iff]
    exact map_readDigits_eq_ok_iff hne fun m => le_largest_iff
  · next ds hne =>
    rw [spells_minus_iff]
    exact map_readDigits_eq_ok_iff hne fun m => le_smallest_iff
  · next hne _ _ hplus hminus =>
    rw [spells_unsigned_iff hplus hminus]
    exact map_readDigits_eq_ok_iff hne fun m => le_largest_iff

/-! ## White space around them -/

/-- Digits are no white space. -/
theorem isBlankChar_of_isDigit {c : Char} (h : c.isDigit = true) : Text.isBlankChar c = false := by
  have hr : ∀ r ∈ Text.blankRanges, r.2 < 48 ∨ 57 < r.1 := by decide
  have hc : 48 ≤ c.toNat ∧ c.toNat ≤ 57 := by
    simpa [Char.isDigit, UInt32.le_iff_toNat_le] using h
  apply List.any_eq_false.2
  intro r hm
  have hb := hr r hm
  simp only [Bool.and_eq_true, decide_eq_true_eq]
  omega

/-- Nothing in the spelling of a number is white space. -/
theorem isBlankChar_of_spells {cs : List Char} {n : Int} (h : Spells cs n) :
    ∀ c ∈ cs, Text.isBlankChar c = false := by
  have hsign : Text.isBlankChar '+' = false ∧ Text.isBlankChar '-' = false := by decide
  cases h with
  | unsigned _ hd => exact fun c hc => isBlankChar_of_isDigit (hd c hc)
  | plus _ hd =>
    exact List.forall_mem_cons.2 ⟨hsign.1, fun c hc => isBlankChar_of_isDigit (hd c hc)⟩
  | minus _ hd =>
    exact List.forall_mem_cons.2 ⟨hsign.2, fun c hc => isBlankChar_of_isDigit (hd c hc)⟩

/-- A text is a number of 64 bits in decimal, with a sign or without, between any white space. -/
def Denotes (raw : String) (n : Int) : Prop :=
  ∃ left core right, raw.toList = left ++ core ++ right ∧
    (∀ c ∈ left, Text.isBlankChar c = true) ∧ (∀ c ∈ right, Text.isBlankChar c = true) ∧
      Spells core n ∧ -2 ^ 63 ≤ n ∧ n < 2 ^ 63

theorem read_eq_ok_iff {raw : String} {n : Int} : read raw = .ok n ↔ Denotes raw n := by
  rw [read, readNumber_eq_ok_iff]
  constructor
  · rintro ⟨hs, hn⟩
    obtain ⟨left, right, hraw, hl, hr⟩ := Text.exists_eq_append_trimChars raw.toList
    exact ⟨left, _, right, hraw, hl, hr, hs, hn⟩
  · rintro ⟨left, core, right, hraw, hl, hr, hs, hn⟩
    rw [hraw, Text.trimChars_append hl hr (isBlankChar_of_spells hs)]
    exact ⟨hs, hn⟩

/-! ## Decimal text -/

/-- A number in decimal, with zeros between its sign and its first digit. -/
def decimal (n : Int) (zeros : Nat) : List Char :=
  (if n < 0 then ['-'] else []) ++ (List.replicate zeros '0' ++ n.natAbs.repr.toList)

theorem ofDigitChars_zeros (zeros : Nat) (cs : List Char) :
    Nat.ofDigitChars 10 (List.replicate zeros '0' ++ cs) 0 = Nat.ofDigitChars 10 cs 0 := by
  induction zeros with
  | zero => rfl
  | succ zeros ih => exact ih

theorem spells_decimal (n : Int) (zeros : Nat) : Spells (decimal n zeros) n := by
  have hd : ∀ c ∈ List.replicate zeros '0' ++ n.natAbs.repr.toList, c.isDigit = true := by
    intro c hc
    rcases List.mem_append.1 hc with hc | hc
    · rw [List.eq_of_mem_replicate hc]
      rfl
    · rw [Nat.toList_repr] at hc
      exact Nat.isDigit_of_mem_toDigits (by decide) (by decide) hc
  have hne : List.replicate zeros '0' ++ n.natAbs.repr.toList ≠ [] := by
    rw [Nat.toList_repr]
    exact List.append_ne_nil_of_right_ne_nil _ Nat.toDigits_ne_nil
  have hv :
      Nat.ofDigitChars 10 (List.replicate zeros '0' ++ n.natAbs.repr.toList) 0 = n.natAbs := by
    rw [ofDigitChars_zeros, Nat.toList_repr, Nat.ofDigitChars_ten_toDigits]
  unfold decimal
  split
  · rw [List.singleton_append, spells_minus_iff, hv]
    exact ⟨hne, hd, by omega⟩
  · have hs := Spells.unsigned hne hd
    rw [hv, Int.natAbs_of_nonneg (by omega)] at hs
    exact hs

example : decimal (-7) 2 = ['-', '0', '0', '7'] := rfl

end Wheelwright.Epoch

namespace Wheelwright

/-- The time is set if the variable is, to a number. -/
theorem epoch_eq_some_iff {env : Environment} {n : Int} :
    (Config.ofEnvironment env).epoch = some n ↔
      ∃ raw, env.sourceDateEpoch? = some raw ∧ Epoch.Denotes raw n := by
  simp only [Config.ofEnvironment]
  cases env.sourceDateEpoch? with
  | none => simp
  | some raw =>
    simp only [Option.some.injEq, exists_eq_left', ← Epoch.read_eq_ok_iff]
    cases Epoch.read raw with
    | error cause => simp [Except.toOption]
    | ok m => simp [Except.toOption]

/-- The time that archives are stamped with is the number that the setting denotes, and there is
none if it denotes no number. A number of 64 bits in decimal is read back, with any white space
around it and any zeros in front. -/
theorem epoch_ofEnvironment (env : Environment) :
    (∀ n, (Config.ofEnvironment env).epoch = some n ↔
      ∃ raw, env.sourceDateEpoch? = some raw ∧ Epoch.Denotes raw n) ∧
    ((Config.ofEnvironment env).epoch = none ↔
      ∀ raw n, env.sourceDateEpoch? = some raw → ¬ Epoch.Denotes raw n) ∧
    ∀ (n : Int64) (zeros : Nat) (left right : List Char),
      (∀ c ∈ left, Text.isBlankChar c = true) → (∀ c ∈ right, Text.isBlankChar c = true) →
        env.sourceDateEpoch? =
            some (String.ofList (left ++ Epoch.decimal n.toInt zeros ++ right)) →
          (Config.ofEnvironment env).epoch = some n.toInt := by
  refine ⟨fun n => epoch_eq_some_iff, ?absent, ?decimal⟩
  case absent =>
    rw [Option.eq_none_iff_forall_ne_some]
    constructor
    · intro h raw n hraw hn
      exact h n (epoch_eq_some_iff.2 ⟨raw, hraw, hn⟩)
    · intro h n hn
      obtain ⟨raw, hraw, hd⟩ := epoch_eq_some_iff.1 hn
      exact h raw n hraw hd
  case decimal =>
    intro n zeros left right hl hr hraw
    refine epoch_eq_some_iff.2 ⟨_, hraw, left, _, right, String.toList_ofList, hl, hr, ?_⟩
    exact ⟨Epoch.spells_decimal n.toInt zeros, n.le_toInt, n.toInt_lt⟩

/-- The smallest number, between a space that is no ASCII and a line end, with zeros in front. -/
theorem epoch_ofEnvironment_smallest :
    (∀ c ∈ ['\u3000'], Text.isBlankChar c = true) ∧ (∀ c ∈ ['\n'], Text.isBlankChar c = true) ∧
      (Config.ofEnvironment
        ⟨[("SOURCE_DATE_EPOCH", "\u3000-009223372036854775808\n")]⟩).epoch =
          some Int64.minValue.toInt := by
  have hl : ∀ c ∈ ['\u3000'], Text.isBlankChar c = true := List.forall_mem_singleton.2 (by decide)
  have hr : ∀ c ∈ ['\n'], Text.isBlankChar c = true := List.forall_mem_singleton.2 (by decide)
  exact ⟨hl, hr, (epoch_ofEnvironment _).2.2 Int64.minValue 2 _ _ hl hr (by decide)⟩

end Wheelwright
