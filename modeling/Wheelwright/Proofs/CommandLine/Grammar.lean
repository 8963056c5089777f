import Mathlib.Data.List.TakeWhile
import Wheelwright.CommandLine.Writing
import Wheelwright.Proofs.Text.Utf8
/-!
# The grammar of command lines

What a line of arguments says can be described without a reader: it is a list of items, each of them
written in one of the ways in which an item can be written, letters after one dash among them, and
two dashes may stand at the end. `Written items args` is that relation. The main statement is
`scan_eq_iff`: the scanner reads a line to its end and finds some items exactly if these items can
be written so.
-/

namespace Wheelwright.CommandLine

/-- The letter after one dash that says an item, if there is one. -/
def Item.letter? : Item → Option Char
  | .switch .quiet => some 'q'
  | .verbose => some 'v'
  | .help => some 'h'
  | _ => none

/-- Items as letters after one dash. -/
def cluster (items : List Item) : Bytes :=
  dash :: (items.filterMap Item.letter?).flatMap Utf8.encodeChar

/-- Two dashes with nothing behind them, which end the options. -/
def endOfOptions : Bytes := [dash, dash]

/-- The items can be written as these arguments. -/
inductive Written : List Item → List Bytes → Prop
  | nil : Written [] []
  | ending : Written [] [endOfOptions]
  | item {item : Item} {items : List Item} {written args : List Bytes}
      (h : item.WrittenAs written) (rest : Written items args) :
      Written (item :: items) (written ++ args)
  | letters {said items : List Item} {args : List Bytes} (hne : said ≠ [])
      (h : ∀ item ∈ said, item.letter?.isSome) (rest : Written items args) :
      Written (said ++ items) (cluster said :: args)

/-- Items can be written one after another, each in a way of its own. -/
theorem written_flatMap {write : Item → List Bytes} (h : ∀ item : Item, item.WrittenAs (write item))
    (items : List Item) : Written items (items.flatMap write) := by
  induction items with
  | nil => exact .nil
  | cons item items ih =>
    rw [List.flatMap_cons]
    exact .item (h item) ih

/-! ## Spellings -/

theorem Meaning.mem_all (m : Meaning) : m ∈ all := by
  cases m with
  | key k => cases k <;> decide
  | switch s => cases s <;> decide
  | verbose => decide
  | help => decide

theorem Meaning.ofSpelling?_eq_some_iff {s : String} {m : Meaning} :
    ofSpelling? s = some m ↔ m.spelling = s := by
  constructor
  · intro h
    simpa using List.find?_some h
  · rintro rfl
    have hall : ∀ m ∈ all, ofSpelling? m.spelling = some m := by decide +kernel
    exact hall m (mem_all m)

/-- What stands for an option after two dashes is its spelling. -/
theorem Meaning.ofSpelling?_decode?_eq_some_iff {name : Bytes} {m : Meaning} :
    (Utf8.decode? name).bind ofSpelling? = some m ↔ name = Utf8.encode m.spelling := by
  simp only [Option.bind_eq_some_iff, Utf8.decode?_eq_some_iff, ofSpelling?_eq_some_iff]
  constructor
  · rintro ⟨s, rfl, rfl⟩
    rfl
  · rintro rfl
    exact ⟨_, rfl, rfl⟩

/-! ## Words -/

namespace Word

variable {arg name given letters : Bytes} {attached : Option Bytes}

/-- An option with what is attached to it. -/
def glueAttached (name : Bytes) : Option Bytes → Bytes
  | none => name
  | some given => name ++ equalsSign :: given

theorem splitAttached_glueAttached (h : equalsSign ∉ name) (attached : Option Bytes) :
    splitAttached (glueAttached name attached) = .long name attached := by
  have hname : ∀ b ∈ name, decide (b ≠ equalsSign) = true := by
    intro b hb
    simp only [decide_eq_true_eq]
    rintro rfl
    exact h hb
  cases attached with
  | none =>
    have hd : name.dropWhile (· ≠ equalsSign) = [] := List.dropWhile_eq_nil_iff.2 hname
    simp only [glueAttached, splitAttached, hd]
  | some given =>
    have hd : (name ++ equalsSign :: given).dropWhile (· ≠ equalsSign) = equalsSign :: given := by
      rw [List.dropWhile_append_of_pos hname]
      simp
    have ht : (name ++ equalsSign :: given).takeWhile (· ≠ equalsSign) = name := by
      rw [List.takeWhile_append_of_pos hname]
      simp
    simp only [glueAttached, splitAttached, hd, ht]

/-- The argument that a word was. -/
def bytes : Word → Bytes
  | .endOfOptions => CommandLine.endOfOptions
  | .long name attached => dash :: dash :: glueAttached name attached
  | .short letters => dash :: letters
  | .plain value => value

theorem bytes_splitAttached (bs : Bytes) : (splitAttached bs).bytes = dash :: dash :: bs := by
  unfold splitAttached
  split
  · rfl
  · next b value hd =>
    have hb : b = equalsSign := by
      have hhead := List.head?_dropWhile_not (· ≠ equalsSign) bs
      rw [hd] at hhead
      simpa using hhead
    rw [bytes, glueAttached, ← hb, ← hd, hb]
    exact congrArg (dash :: dash :: ·) List.takeWhile_append_dropWhile

/-- Nothing is lost when an argument is taken for a word. -/
@[simp] theorem bytes_ofBytes (arg : Bytes) : (ofBytes arg).bytes = arg := by
  unfold ofBytes
  split
  · rfl
  · next a rest =>
    split
    · rfl
    · next ha =>
      rw [Classical.not_not.1 ha]
      cases rest with
      | nil => rfl
      | cons b more =>
        dsimp only
        split
        · rfl
        · next hb =>
          rw [Classical.not_not.1 hb]
          split
          · next hm =>
            rw [hm]
            rfl
          · exact bytes_splitAttached more

theorem eq_of_ofBytes {w : Word} (h : ofBytes arg = w) : arg = w.bytes := by
  rw [← h, bytes_ofBytes]

/-- What begins with two dashes and a name is a long option. -/
theorem ofBytes_long {m : Meaning} (attached : Option Bytes) :
    ofBytes (dash :: dash :: glueAttached (Utf8.encode m.spelling) attached) =
      .long (Utf8.encode m.spelling) attached := by
  have hall : ∀ m ∈ Meaning.all,
      Utf8.encode m.spelling ≠ [] ∧ equalsSign ∉ Utf8.encode m.spelling := by
    decide +kernel
  obtain ⟨hne, hname⟩ := hall m m.mem_all
  have hglue : glueAttached (Utf8.encode m.spelling) attached ≠ [] := by
    cases attached with
    | none => exact hne
    | some given => simp [glueAttached]
  simp [ofBytes, hglue, splitAttached_glueAttached hname]

/-- An argument is plain exactly if it does not begin with a dash or is nothing else. -/
theorem ofBytes_eq_plain_iff {k : Key} :
    ofBytes given = .plain given ↔ (Item.value k given).isSeparable = true := by
  unfold ofBytes
  cases given with
  | nil => simp [Item.isSeparable]
  | cons a rest =>
    by_cases ha : a = dash
    · subst ha
      cases rest with
      | nil => simp [Item.isSeparable]
      | cons b more =>
        by_cases hb : b = dash
        · subst hb
          have hs : splitAttached more ≠ .plain (dash :: dash :: more) := by
            unfold splitAttached
            split <;> exact nofun
          by_cases hm : more = []
          · simp [Item.isSeparable, hm]
          · simp [Item.isSeparable, hm, hs]
        · simp [Item.isSeparable, hb]
    · simp [Item.isSeparable, ha]

end Word

/-! ## Letters -/

theorem letterItems_cons {item : Item} {c : Char} (h : item.letter? = some c)
    (letters : List (Option Char)) :
    letterItems (some c :: letters) =
      (item :: (letterItems letters).1, (letterItems letters).2) := by
  unfold Item.letter? at h
  split at h <;> cases h <;> rfl

theorem letterItems_stop {c : Char} (h : ∀ item : Item, item.letter? ≠ some c)
    (letters : List (Option Char)) : letterItems (some c :: letters) = ([], false) := by
  have hq : c ≠ 'q' := by
    rintro rfl
    exact h (.switch .quiet) rfl
  have hv : c ≠ 'v' := by
    rintro rfl
    exact h .verbose rfl
  have hh : c ≠ 'h' := by
    rintro rfl
    exact h .help rfl
  simp [letterItems, Meaning.ofLetter?]

/-- Letters that can all be read say the items that were found. -/
theorem of_letterItems {letters : List (Option Char)} {items : List Item}
    (h : letterItems letters = (items, true)) :
    letters = (items.filterMap Item.letter?).map some ∧ ∀ item ∈ items, item.letter?.isSome := by
  induction letters generalizing items with
  | nil =>
    cases h
    simp
  | cons letter letters ih =>
    cases letter with
    | none => cases h
    | some c =>
      by_cases hc : ∃ item : Item, item.letter? = some c
      · obtain ⟨item, hi⟩ := hc
        rw [letterItems_cons hi, Prod.mk.injEq] at h
        obtain ⟨rfl, hall⟩ := h
        obtain ⟨hmap, hsome⟩ := ih (Prod.ext rfl hall)
        refine ⟨?_, ?_⟩
        · rw [List.filterMap_cons_some hi, List.map_cons, ← hmap]
        · simpa [hi] using hsome
      · rw [not_exists] at hc
        rw [letterItems_stop hc] at h
        cases h

/-- Items that letters say are found. -/
theorem letterItems_filterMap {items : List Item} (h : ∀ item ∈ items, item.letter?.isSome) :
    letterItems ((items.filterMap Item.letter?).map some) = (items, true) := by
  induction items with
  | nil => rfl
  | cons item items ih =>
    obtain ⟨c, hc⟩ := Option.isSome_iff_exists.1 (h item List.mem_cons_self)
    rw [List.filterMap_cons_some hc, List.map_cons, letterItems_cons hc,
      ih fun i hi => h i (List.mem_cons_of_mem item hi)]

/-- Letters after one dash are a word of that kind. -/
theorem ofBytes_cluster {items : List Item} (hne : items ≠ [])
    (h : ∀ item ∈ items, item.letter?.isSome) :
    ∃ letters, Word.ofBytes (cluster items) = .short letters ∧
      letterItems (Utf8.scan letters) = (items, true) := by
  have hscan : Utf8.scan ((items.filterMap Item.letter?).flatMap Utf8.encodeChar) =
      (items.filterMap Item.letter?).map some := Utf8.scan_eq_map_some_iff.2 rfl
  refine ⟨(items.filterMap Item.letter?).flatMap Utf8.encodeChar, ?_, ?_⟩
  · -- no letter is a dash
    obtain ⟨item, rest, rfl⟩ := List.exists_cons_of_ne_nil hne
    obtain ⟨c, hc⟩ := Option.isSome_iff_exists.1 (h item List.mem_cons_self)
    have hbyte : ∃ b, b ≠ dash ∧ Utf8.encodeChar c = [b] := by
      unfold Item.letter? at hc
      split at hc <;> cases hc <;> exact ⟨_, by decide, rfl⟩
    obtain ⟨b, hb, hbytes⟩ := hbyte
    simp [cluster, Word.ofBytes, List.filterMap_cons_some hc, hbytes, hb]
  · rw [hscan]
    exact letterItems_filterMap h

/-! ## What the scanner reads -/

section reading

variable {p : Pending} {r : Reading} {items before rest said : List Item} {arg : Bytes}
  {args : List Bytes}

theorem Pending.then_of_settle (h : p.settle = .ok before) (items : List Item) :
    p.then ⟨items, none⟩ = ⟨before ++ items, none⟩ := by
  unfold Pending.then
  rw [h]
  rfl

theorem Pending.exists_of_then (h : p.then r = ⟨items, none⟩) :
    ∃ before rest, p.settle = .ok before ∧ r = ⟨rest, none⟩ ∧ items = before ++ rest := by
  unfold Pending.then at h
  split at h
  · next before hb =>
    obtain ⟨rest, error⟩ := r
    cases h
    exact ⟨before, rest, hb, rfl, rfl⟩
  · cases h

theorem Reading.exists_of_after (h : r.after said = ⟨items, none⟩) :
    ∃ rest, r = ⟨rest, none⟩ ∧ items = said ++ rest := by
  obtain ⟨rest, error⟩ := r
  cases h
  exact ⟨rest, rfl, rfl⟩

/-- The items that are still to be found when something is open. -/
def Finds (items : List Item) : Pending → List Bytes → Prop
  | .nothing, args => Written items args
  | .awaiting k, args => ∃ given args' rest, args = given :: args' ∧
      (Item.value k given).isSeparable = true ∧ items = .value k given :: rest ∧ Written rest args'
  | .holding k given, args => ∃ rest, items = .value k given :: rest ∧ Written rest args

/-- What is written after something that can be settled is found after it. -/
theorem finds_of_settle (h : p.settle = .ok before) (hw : Written rest args) :
    Finds (before ++ rest) p args := by
  cases p with
  | nothing =>
    cases h
    exact hw
  | awaiting k => cases h
  | holding k given =>
    cases h
    exact ⟨rest, rfl, hw⟩

/-! ### One step of the scanner -/

theorem scanFrom_long (p : Pending) (m : Meaning) (attached : Option Bytes) (args : List Bytes) :
    scanFrom p ((dash :: dash :: Word.glueAttached (Utf8.encode m.spelling) attached) :: args) =
      match m, attached with
      | .key k, none => p.then (scanFrom (.awaiting k) args)
      | .key k, some given => p.then ((scanFrom .nothing args).after [.value k given])
      | _, some _ => .stop .tooManyValues
      | .switch s, none => p.then ((scanFrom .nothing args).after [.switch s])
      | .verbose, none => p.then ((scanFrom .nothing args).after [.verbose])
      | .help, none => p.then ((scanFrom .nothing args).after [.help]) := by
  have hm := Meaning.ofSpelling?_decode?_eq_some_iff.2 (Eq.refl (Utf8.encode m.spelling))
  rw [scanFrom, Word.ofBytes_long]
  simp only [hm]
  cases m <;> cases attached <;> rfl

/-- An option without a value waits for one. -/
theorem scanFrom_option (p : Pending) (k : Key) (args : List Bytes) :
    scanFrom p (longOption k.spelling :: args) = p.then (scanFrom (.awaiting k) args) :=
  scanFrom_long p (.key k) none args

/-- An item in one argument comes after what was open. -/
theorem scanFrom_argument (p : Pending) (item : Item) (args : List Bytes) :
    scanFrom p (item.argument :: args) = p.then ((scanFrom .nothing args).after [item]) := by
  cases item with
  | value k given => exact scanFrom_long p (.key k) (some given) args
  | switch s => exact scanFrom_long p (.switch s) none args
  | verbose => exact scanFrom_long p .verbose none args
  | help => exact scanFrom_long p .help none args

/-- A plain argument is the value that is waited for. -/
theorem scanFrom_value {k : Key} {given : Bytes} (h : (Item.value k given).isSeparable = true)
    (args : List Bytes) :
    scanFrom (.awaiting k) (given :: args) = scanFrom (.holding k given) args := by
  rw [scanFrom, Word.ofBytes_eq_plain_iff.2 h]

/-- Letters come after what was open. -/
theorem scanFrom_cluster (p : Pending) (hne : said ≠ []) (h : ∀ item ∈ said, item.letter?.isSome)
    (args : List Bytes) :
    scanFrom p (cluster said :: args) = p.then ((scanFrom .nothing args).after said) := by
  obtain ⟨letters, hword, hitems⟩ := ofBytes_cluster hne h
  obtain ⟨item, more, rfl⟩ := List.exists_cons_of_ne_nil hne
  rw [scanFrom, hword]
  simp only [hitems]

/-! ### The whole line -/

/-- An item is written as one argument, or as an option and its value. -/
theorem Item.WrittenAs.cases {item : Item} {written : List Bytes} (h : item.WrittenAs written) :
    written = [item.argument] ∨ ∃ k given, item = .value k given ∧
      (Item.value k given).isSeparable = true ∧ written = [longOption k.spelling, given] := by
  cases h with
  | attached => exact .inl rfl
  | separate hs =>
    cases item with
    | value k given => exact .inr ⟨k, given, rfl, hs, rfl⟩
    | switch s => exact .inl rfl
    | verbose => exact .inl rfl
    | help => exact .inl rfl

/-- What is written is found, after what was open. -/
theorem scanFrom_of_written (hw : Written items args) (h : p.settle = .ok before) :
    scanFrom p args = ⟨before ++ items, none⟩ := by
  induction hw generalizing p before with
  | nil => exact Pending.then_of_settle h []
  | ending =>
    have hend : Word.ofBytes endOfOptions = .endOfOptions := by decide
    rw [scanFrom, hend]
    exact Pending.then_of_settle h []
  | @item item items written args hwritten _ ih =>
    rcases hwritten.cases with rfl | ⟨k, given, rfl, hs, rfl⟩
    · rw [List.singleton_append, scanFrom_argument, ih (p := .nothing) rfl]
      exact Pending.then_of_settle h _
    · rw [List.cons_append, List.singleton_append, scanFrom_option, scanFrom_value hs,
        ih (p := .holding k given) rfl]
      exact Pending.then_of_settle h _
  | @letters said items args hne hl _ ih =>
    rw [scanFrom_cluster p hne hl, ih (p := .nothing) rfl]
    exact Pending.then_of_settle h _

/-- What is found is written so. -/
theorem finds_of_scanFrom (h : scanFrom p args = ⟨items, none⟩) : Finds items p args := by
  induction args generalizing p items with
  | nil =>
    obtain ⟨before, rest, hb, hr, rfl⟩ := Pending.exists_of_then h
    cases hr
    exact finds_of_settle hb .nil
  | cons arg args ih =>
    -- an item in one argument, with whatever comes after it
    have hitem : ∀ item : Item, item.argument = arg → Finds items p (arg :: args) := by
      rintro item rfl
      rw [scanFrom_argument] at h
      obtain ⟨before, rest, hb, hr, rfl⟩ := Pending.exists_of_then h
      obtain ⟨more, hmore, rfl⟩ := Reading.exists_of_after hr
      exact finds_of_settle hb (.item (.attached item) (ih hmore))
    cases hword : Word.ofBytes arg with
    | endOfOptions =>
      obtain rfl := Word.eq_of_ofBytes hword
      rw [scanFrom, hword] at h
      dsimp only at h
      split at h
      · next hargs =>
        subst hargs
        obtain ⟨before, rest, hb, hr, rfl⟩ := Pending.exists_of_then h
        cases hr
        exact finds_of_settle hb .ending
      · cases h
    | long name attached =>
      obtain rfl := Word.eq_of_ofBytes hword
      cases hm : (Utf8.decode? name).bind Meaning.ofSpelling? with
      | none =>
        rw [scanFrom, hword] at h
        simp only [hm] at h
        cases h
      | some m =>
        obtain rfl := Meaning.ofSpelling?_decode?_eq_some_iff.1 hm
        have hlong := (scanFrom_long p m attached args).symm.trans h
        cases attached with
        | none =>
          cases m with
          | key k =>
            obtain ⟨before, rest, hb, hr, rfl⟩ := Pending.exists_of_then hlong
            obtain ⟨given, args, more, rfl, hs, rfl, hw⟩ := ih hr
            exact finds_of_settle hb (.item (.separate hs) hw)
          | switch s => exact hitem (.switch s) rfl
          | verbose => exact hitem .verbose rfl
          | help => exact hitem .help rfl
        | some given =>
          cases m with
          | key k => exact hitem (.value k given) rfl
          | switch s => cases hlong
          | verbose => cases hlong
          | help => cases hlong
    | short letters =>
      obtain rfl := Word.eq_of_ofBytes hword
      rw [scanFrom, hword] at h
      rcases hl : letterItems (Utf8.scan letters) with ⟨said, all⟩
      simp only [hl] at h
      cases said with
      | nil => cases h
      | cons item said =>
        cases all with
        | false =>
          obtain ⟨-, rest, -, hr, -⟩ := Pending.exists_of_then h
          cases hr
        | true =>
          obtain ⟨hscan, hsome⟩ := of_letterItems hl
          obtain ⟨before, rest, hb, hr, rfl⟩ := Pending.exists_of_then h
          obtain ⟨more, hmore, rfl⟩ := Reading.exists_of_after hr
          rw [Word.bytes, ← Utf8.scan_eq_map_some_iff.1 hscan]
          exact finds_of_settle hb (.letters (by simp) hsome (ih hmore))
    | plain given =>
      obtain rfl := Word.eq_of_ofBytes hword
      rw [scanFrom, hword] at h
      dsimp only at h
      split at h
      · next k =>
        obtain ⟨rest, rfl, hw⟩ := ih h
        exact ⟨arg, args, rest, rfl, Word.ofBytes_eq_plain_iff.1 hword, rfl, hw⟩
      · cases h

/-- The scanner reads a line to its end and finds some items exactly if they can be written so. -/
theorem scan_eq_iff : scan args = ⟨items, none⟩ ↔ Written items args := by
  constructor
  · exact finds_of_scanFrom
  · intro h
    exact scanFrom_of_written (p := .nothing) h rfl

end reading

end Wheelwright.CommandLine
