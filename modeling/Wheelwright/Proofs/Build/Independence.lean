import Wheelwright.Proofs.Build.Delivery
import Wheelwright.Proofs.Disk.Difference
import Wheelwright.Proofs.Disk.Staging
/-!
# Builds side by side

Where the output directory is there already, a build reads one file and replaces one other, and
whatever else stands on the disk makes no difference to it: not to the staging, for which there is
always a free name, and not to the renaming, for which nothing counts but whether a directory stands
in the wheel's place. So what a build gives and what it writes is the same on two disks that differ
in a place that its program is not at (`Ready.build_congr`, `Ready.wheel?_congr`). The main
statement is `build_order`: two builds with wheels of their own can go in either order, and one can
be repeated.
-/

namespace Wheelwright.Disk

variable {d e : Disk} {l t here : Location} {p binary : Path} {request : BuildRequest}
  {epoch : Option Int} {codec : Zip.Codec} {archive : Bytes} {cause : Fault}

/-! ## What hinders a renaming -/

/-- Why a file that is there cannot be renamed to a path. -/
def hindrance? (d : Disk) (p : Path) : Option Fault :=
  if p.bytes.contains 0 then some (.os .invalidArgument)
  else match d.slot p .busy with
    | .error cause => some cause
    | .ok l =>
      if p.bytes.getLast? == some Path.slash then some (.os .notDirectory)
      else if d.hasDirectory l then some (.os .isDirectory)
      else none

theorem publish_eq_error_iff (hn : (d.node? l).isSome) :
    d.publish l p = .error cause ↔ d.hindrance? p = some cause := by
  obtain ⟨n, hn⟩ := Option.isSome_iff_exists.1 hn
  unfold publish hindrance?
  split
  · simp
  · cases d.slot p .busy with
    | error cause => simp
    | ok t =>
      simp only [hn]
      split
      · simp
      · split
        · simp
        · simp

/-- A name without a slash is given in the output directory, if it is not too long. -/
theorem slot_wheelPath (hb : '/' ∉ request.filename.toList)
    (hf : d.follow request.outputDir request.outputDir.names = .ok here)
    (hd : d.hasDirectory here) : d.slot request.wheelPath .busy =
      match vet request.wheelPath with
      | .error cause => .error cause
      | .ok () =>
        if longestName < (Utf8.encode request.filename).length then .error (.os .nameTooLong)
        else .ok (Utf8.encode request.filename :: here) := by
  have hs : Path.slash ∉ (Path.ofString request.filename).bytes := by rwa [Path.slash_mem_ofString]
  have hslot := slot_join request.outputDir _ hs (request.bytes_filename_ne (by decide))
    (request.bytes_filename_ne (by decide)) (request.bytes_filename_ne (by decide)) hf hd
  rw [Path.bytes_ofString] at hslot
  unfold BuildRequest.wheelPath
  refine (hslot .busy).trans ?_
  cases vet (request.outputDir.join (.ofString request.filename)) with
  | error cause => rfl
  | ok u => rfl

/-- Whether the wheel's place can be renamed to does not depend on what stands elsewhere. -/
theorem AlikeBut.hindrance?_wheelPath (h : AlikeBut t d e) (hb : '/' ∉ request.filename.toList)
    (hf : d.follow request.outputDir request.outputDir.names = .ok here)
    (hd : d.hasDirectory here) :
    e.hindrance? request.wheelPath = d.hindrance? request.wheelPath := by
  unfold hindrance?
  rw [slot_wheelPath hb hf hd, slot_wheelPath hb (h.follow_eq hf hd) (h.hasDirectory hd)]
  simp only [h.hasDirectory_eq]

/-! ## What a staged wheel comes to -/

/-- A wheel that is staged is put in its place unless that is hindered, which it is or is not before
the staging already. -/
theorem fst_persist_of_stage {staged : Location × Disk} (hb : '/' ∉ request.filename.toList)
    (hs : d.stage request.outputDir = .ok staged) :
    (d.persist request.outputDir request.wheelPath archive).1 =
      match d.hindrance? request.wheelPath with
      | some cause => .error (.io ("writing " ++ request.wheelPath.display) cause)
      | none => .ok () := by
  obtain ⟨l, b⟩ := staged
  obtain ⟨name, here, rfl, hf, hd, hn, rfl⟩ := exists_of_stage hs
  -- the staged file stands where nothing stood, so it hinders nothing
  have hsame : Same _ (d.put (name :: here) (.file Build.wheelMode archive)) := same_filled
  have hdead : d.IsDeadEnd (name :: here) := by
    intro n hn'
    rw [hn] at hn'
    cases hn'
  have halike := (AlikeBut.of_put hdead hsame).hindrance?_wheelPath hb hf hd
  have hsome : (((d.put (name :: here) (.file stagedMode [])).filled (name :: here) archive
      Build.wheelMode).node? (name :: here)).isSome := by
    rw [hsame.2, node?_put_self]
    rfl
  rw [← halike]
  unfold persist
  simp only [hs]
  cases hp : ((d.put (name :: here) (.file stagedMode [])).filled (name :: here) archive
      Build.wheelMode).publish (name :: here) request.wheelPath with
  | error cause => rw [(publish_eq_error_iff hsome).1 hp]
  | ok f =>
    cases hh : ((d.put (name :: here) (.file stagedMode [])).filled (name :: here) archive
        Build.wheelMode).hindrance? request.wheelPath with
    | none => rfl
    | some cause => cases hp.symm.trans ((publish_eq_error_iff hsome).2 hh)

/-- What comes of a staged wheel does not depend on what stands elsewhere. -/
theorem AlikeBut.fst_persist (h : AlikeBut t d e) (hb : '/' ∉ request.filename.toList)
    (hdir : d.isDirectory request.outputDir) (archive : Bytes) :
    (e.persist request.outputDir request.wheelPath archive).1 =
      (d.persist request.outputDir request.wheelPath archive).1 := by
  obtain ⟨here, hf, hd⟩ := exists_follow_of_isDirectory hdir
  have hz := contains_of_vet (vet_of_isDirectory hdir)
  have hfe := h.follow_eq hf hd
  have hde := h.hasDirectory hd
  have hsd := stage_of_hasDirectory hz hf hd
  have hse := stage_of_hasDirectory hz hfe hde
  have hpath : e.stagingPath request.outputDir = d.stagingPath request.outputDir := by
    unfold stagingPath
    rw [h.workingDirectory]
  rw [hpath] at hse
  split at hsd
  · next hlong =>
    rw [if_pos hlong] at hse
    unfold persist
    simp only [hsd, hse]
  · next hlong =>
    rw [if_neg hlong] at hse
    obtain ⟨staged, hs⟩ := hsd
    obtain ⟨staged', hs'⟩ := hse
    rw [fst_persist_of_stage hb hs, fst_persist_of_stage hb hs',
      h.hindrance?_wheelPath hb hf hd]

/-! ## One build -/

/-- The program at a path is a matter of the file that the path leads to. -/
theorem program_congr (h : ∀ mode content,
    e.find? binary = .ok (.file mode content) ↔ d.find? binary = .ok (.file mode content)) :
    e.program binary = d.program binary := by
  by_cases hr : d.isRegularFile binary = true
  · obtain ⟨mode, content, hf⟩ := isRegularFile_iff.1 hr
    simp only [program, isRegularFile, read, hf, (h mode content).2 hf]
  · have hr' : ¬e.isRegularFile binary = true := by
      intro hr'
      obtain ⟨mode, content, hf⟩ := isRegularFile_iff.1 hr'
      exact hr (isRegularFile_iff.2 ⟨mode, content, (h mode content).1 hf⟩)
    unfold program
    rw [if_neg hr, if_neg hr']

/-- The disk is a tree without links in which the output directory is there, and the wheel has a
name without a slash. -/
structure Ready (d : Disk) (request : BuildRequest) : Prop where
  tree : d.IsTree
  noLinks : d.HasNoLinks
  directory : d.isDirectory request.outputDir = true
  bare : '/' ∉ request.filename.toList

/-- The wheel that a build puts on the disk and where, if it succeeds. -/
def wheel? (request : BuildRequest) (epoch : Option Int) (codec : Zip.Codec) (d : Disk) :
    Option (Location × Bytes) :=
  match (d.build request epoch codec).1, d.slot request.wheelPath .busy,
    request.packed epoch codec d with
  | .ok _, .ok l, .ok (_, archive) => some (l, archive)
  | _, _, _ => none

/-- The disk with a wheel, if there is one. -/
def withWheel (d : Disk) : Option (Location × Bytes) → Disk
  | some (l, archive) => d.put l (.file Build.wheelMode archive)
  | none => d

theorem build_of_isDirectory (h : d.isDirectory request.outputDir) :
    d.build request epoch codec =
      match request.packed epoch codec d with
      | .error error => (.error error, d)
      | .ok (plan, archive) =>
        ((d.persist request.outputDir request.wheelPath archive).1.map fun _ =>
          request.built plan archive,
          (d.persist request.outputDir request.wheelPath archive).2) := by
  unfold build deliver
  rw [makeDirectories_of_isDirectory h]
  cases request.packed epoch codec d with
  | error error => rfl
  | ok made =>
    dsimp only
    rcases d.persist request.outputDir request.wheelPath made.2 with ⟨r, e⟩
    cases r with
    | error error => rfl
    | ok u => rfl

namespace Ready

/-- A build that succeeds has put its wheel on the disk, and one that fails has done nothing. -/
theorem same_build (h : d.Ready request) (epoch : Option Int) (codec : Zip.Codec) :
    Same (d.build request epoch codec).2 (d.withWheel (d.wheel? request epoch codec)) := by
  unfold wheel?
  rw [build_of_isDirectory h.directory]
  cases hp : request.packed epoch codec d with
  | error error => exact .refl d
  | ok made =>
    obtain ⟨plan, archive⟩ := made
    dsimp only
    rcases hw : d.persist request.outputDir request.wheelPath archive with ⟨r, e⟩
    cases r with
    | error error => exact same_of_persist_error hw
    | ok u =>
      obtain ⟨l, hl, -, hs⟩ := exists_of_persist_ok hw
      rw [hl]
      exact hs

/-- The wheel goes where its path points, and no directory or link is in its way. -/
theorem of_wheel? (h : d.Ready request) (hw : d.wheel? request epoch codec = some (l, archive)) :
    d.PointsTo request.wheelPath l ∧ d.IsDeadEnd l := by
  unfold wheel? at hw
  split at hw
  · next built l' plan archive' hb hl hp =>
    cases hw
    refine ⟨⟨endsInSlash_wheelPath request, hl⟩, fun n hn => ?_⟩
    have hbuild : d.build request epoch codec = (.ok built, (d.build request epoch codec).2) :=
      Prod.ext hb rfl
    obtain ⟨plan', archive', mid, -, -, hm, hw⟩ := exists_of_build_ok hbuild
    rw [makeDirectories_of_isDirectory h.directory, Prod.mk.injEq] at hm
    rw [← hm.2] at hw
    obtain ⟨l', hl', hdir, -⟩ := exists_of_persist_ok hw
    cases hl.symm.trans hl'
    cases n with
    | directory mode => exact absurd (hasDirectory_iff.2 ⟨_, hn, rfl⟩) hdir
    | link target => exact absurd hn (h.noLinks l target)
    | file mode content => exact ⟨rfl, rfl⟩
    | nullDevice => exact ⟨rfl, rfl⟩
  · cases hw

/-- After a build the disk differs in one place at most, which no path points to but the wheel's
and those that point to the same place. -/
theorem exists_alikeBut (h : d.Ready request) (epoch : Option Int) (codec : Zip.Codec) :
    ∃ t, AlikeBut t d (d.build request epoch codec).2 ∧ d.hasDirectory t.tail ∧
      ∀ p, d.PointsTo p t → d.PointsTo request.wheelPath t := by
  have hs := h.same_build epoch codec
  cases hw : d.wheel? request epoch codec with
  | none =>
    -- the root is as good as any place that no path points to
    rw [hw] at hs
    refine ⟨[], .of_same hs.symm, h.tree.root, fun p hp => ?_⟩
    obtain ⟨-, name, here, -, -, -, hl⟩ := slot_eq_ok_iff.1 hp.2
    cases hl
  | some wheel =>
    obtain ⟨l, archive⟩ := wheel
    rw [hw] at hs
    obtain ⟨hp, hd⟩ := h.of_wheel? hw
    exact ⟨l, .of_put hd hs, hp.hasDirectory_tail, fun _ _ => hp⟩

section congr

variable (h : d.Ready request) (ha : AlikeBut t d e) (ht : d.hasDirectory t.tail)
  (hb : ¬d.PointsTo request.binary t)
include h ha

/-- A disk stays ready when something changes that is on no way. -/
theorem congr (ht : d.hasDirectory t.tail) : e.Ready request where
  tree := ha.isTree h.tree ht
  noLinks := ha.hasNoLinks h.noLinks
  directory := ha.isDirectory h.directory
  bare := h.bare

include ht hb

/-- The same is packed. -/
theorem packed_congr (epoch : Option Int) (codec : Zip.Codec) :
    request.packed epoch codec e = request.packed epoch codec d := by
  have hp : e.program request.binary = d.program request.binary :=
    program_congr fun mode content => ha.find?_file_iff h.tree h.noLinks ht hb
  unfold BuildRequest.packed
  rw [hp]

/-- A build gives the same. -/
theorem build_congr (epoch : Option Int) (codec : Zip.Codec) :
    (e.build request epoch codec).1 = (d.build request epoch codec).1 := by
  rw [build_of_isDirectory h.directory, build_of_isDirectory (ha.isDirectory h.directory),
    h.packed_congr ha ht hb]
  cases request.packed epoch codec d with
  | error error => rfl
  | ok made => simp only [ha.fst_persist h.bare h.directory]

/-- The same wheel is put in the same place. -/
theorem wheel?_congr (epoch : Option Int) (codec : Zip.Codec) :
    e.wheel? request epoch codec = d.wheel? request epoch codec := by
  obtain ⟨here, hf, hd⟩ := exists_follow_of_isDirectory h.directory
  unfold wheel?
  rw [h.build_congr ha ht hb, h.packed_congr ha ht hb, slot_wheelPath h.bare hf hd,
    slot_wheelPath h.bare (ha.follow_eq hf hd) (ha.hasDirectory hd)]

end congr
end Ready

/-! ## Two builds -/

theorem Same.withWheel (h : Same d e) (wheel : Option (Location × Bytes)) :
    Same (d.withWheel wheel) (e.withWheel wheel) := by
  cases wheel with
  | none => exact h
  | some wheel =>
    obtain ⟨l, archive⟩ := wheel
    refine ⟨h.1, fun x => ?_⟩
    by_cases hx : x = l
    · simp only [Disk.withWheel, hx, node?_put_self]
    · simp only [Disk.withWheel, node?_put_of_ne _ hx, h.2]

/-- A wheel that is there already is not missed when it is put there again. -/
theorem same_withWheel_withWheel (d : Disk) (wheel : Option (Location × Bytes)) :
    Same ((d.withWheel wheel).withWheel wheel) (d.withWheel wheel) := by
  cases wheel with
  | none => exact .refl d
  | some wheel =>
    obtain ⟨l, archive⟩ := wheel
    refine ⟨rfl, fun x => ?_⟩
    by_cases hx : x = l
    · simp only [withWheel, hx, node?_put_self]
    · simp only [withWheel, node?_put_of_ne _ hx]

/-- Wheels in different places can be put there in either order. -/
theorem same_withWheel_comm (d : Disk) {v w : Option (Location × Bytes)}
    (h : ∀ l m a b, v = some (l, a) → w = some (m, b) → l ≠ m) :
    Same ((d.withWheel v).withWheel w) ((d.withWheel w).withWheel v) := by
  cases v with
  | none => exact .refl _
  | some v =>
    cases w with
    | none => exact .refl _
    | some w =>
      obtain ⟨l, a⟩ := v
      obtain ⟨m, b⟩ := w
      have hne := h l m a b rfl rfl
      refine ⟨rfl, fun x => ?_⟩
      by_cases hl : x = l
      · subst hl
        simp only [withWheel, node?_put_of_ne _ hne, node?_put_self]
      · by_cases hm : x = m
        · subst hm
          simp only [withWheel, node?_put_of_ne _ hl, node?_put_self]
        · simp only [withWheel, node?_put_of_ne _ hl, node?_put_of_ne _ hm]

/-- The paths point to one place. -/
def Meet (d : Disk) (p q : Path) : Prop := ∃ l, d.PointsTo p l ∧ d.PointsTo q l

section order

variable {a b : BuildRequest}

/-- Wheels with different names have different places. -/
theorem ne_of_pointsTo {m : Location} (ha : '/' ∉ a.filename.toList) (hb : '/' ∉ b.filename.toList)
    (hne : a.filename ≠ b.filename) (hl : d.PointsTo a.wheelPath l)
    (hm : d.PointsTo b.wheelPath m) : l ≠ m := by
  have hhead : ∀ {r : BuildRequest} {t : Location}, '/' ∉ r.filename.toList →
      d.PointsTo r.wheelPath t → t.head? = some (Utf8.encode r.filename) := by
    intro r t hr ht
    obtain ⟨-, name, here, hlast, -, -, rfl⟩ := slot_eq_ok_iff.1 ht.2
    rw [BuildRequest.names_wheelPath hr, List.getLast?_concat] at hlast
    rw [List.head?_cons, hlast]
  rintro rfl
  have h := (hhead ha hl).symm.trans (hhead hb hm)
  exact hne (Utf8.encode_injective (Option.some.inj h))

/-- After another build a build gives what it gives without it, and its wheel comes on top. -/
theorem Ready.build_build (ha : d.Ready a) (hb : d.Ready b) (hm : ¬d.Meet b.binary a.wheelPath)
    (x y : Option Int) (codec : Zip.Codec) :
    ((d.build a x codec).2.build b y codec).1 = (d.build b y codec).1 ∧
      Same ((d.build a x codec).2.build b y codec).2
        ((d.withWheel (d.wheel? a x codec)).withWheel (d.wheel? b y codec)) := by
  obtain ⟨t, halike, ht, hp⟩ := ha.exists_alikeBut x codec
  have hbinary : ¬d.PointsTo b.binary t := by
    intro hpoints
    exact hm ⟨t, hpoints, hp _ hpoints⟩
  refine ⟨hb.build_congr halike ht hbinary y codec, ?_⟩
  have hs := (hb.congr halike ht).same_build y codec
  rw [hb.wheel?_congr halike ht hbinary] at hs
  exact hs.trans ((ha.same_build x codec).withWheel _)

/-- Two builds with wheels of their own leave the same disk in either order. -/
theorem Ready.same_build_comm (ha : d.Ready a) (hb : d.Ready b) (hne : a.filename ≠ b.filename)
    (hab : ¬d.Meet b.binary a.wheelPath) (hba : ¬d.Meet a.binary b.wheelPath) (x y : Option Int)
    (codec : Zip.Codec) :
    Same ((d.build a x codec).2.build b y codec).2 ((d.build b y codec).2.build a x codec).2 := by
  have hplaces : ∀ l m v w, d.wheel? a x codec = some (l, v) →
      d.wheel? b y codec = some (m, w) → l ≠ m := by
    intro l m v w hv hw
    exact ne_of_pointsTo ha.bare hb.bare hne (ha.of_wheel? hv).1 (hb.of_wheel? hw).1
  have hfirst := (ha.build_build hb hab x y codec).2
  have hsecond := (hb.build_build ha hba y x codec).2
  exact hfirst.trans ((same_withWheel_comm d hplaces).trans hsecond.symm)

/-- A build that is repeated leaves the disk as it was after the first time. -/
theorem Ready.same_build_again (ha : d.Ready a) (hm : ¬d.Meet a.binary a.wheelPath)
    (x : Option Int) (codec : Zip.Codec) :
    Same ((d.build a x codec).2.build a x codec).2 (d.build a x codec).2 := by
  have hagain := (ha.build_build ha hm x x codec).2
  exact hagain.trans ((same_withWheel_withWheel d _).trans (ha.same_build x codec).symm)

end order

end Wheelwright.Disk

namespace Wheelwright

/-! ## Builds on a world -/

/-- What a build gives on a world, and the world after it. -/
def World.build (w : World) (request : BuildRequest) (epoch : Option Int) (codec : Zip.Codec) :
    Except BuildError BuiltWheel × World :=
  (Wheelwright.build (m := Simulation) request epoch codec).run.run w

theorem World.build_eq (w : World) (request : BuildRequest) (epoch : Option Int)
    (codec : Zip.Codec) :
    (w.build request epoch codec).1 = (w.disk.build request epoch codec).1 ∧
      (w.build request epoch codec).2.disk = (w.disk.build request epoch codec).2 := by
  have hrun : (Wheelwright.build (m := Simulation) request epoch codec).run.run w =
      ((w.build request epoch codec).1, (w.build request epoch codec).2) := rfl
  have h := Disk.build_eq_of_run hrun
  exact ⟨(congrArg Prod.fst h).symm, (congrArg Prod.snd h).symm⟩

/-- On a tree without links where the output directories are there, two builds whose wheels have
different names, none of which is a program, give the same in either order and leave the same disk;
and a build that is repeated gives the same and changes nothing. -/
theorem build_order {a b : BuildRequest} {w : World} (ha : w.disk.Ready a) (hb : w.disk.Ready b)
    (hne : a.filename ≠ b.filename)
    (hmeet : ∀ r ∈ [a, b], ∀ s ∈ [a, b], ¬w.disk.Meet r.binary s.wheelPath) (x y : Option Int)
    (codec : Zip.Codec) :
    (((w.build a x codec).2.build b y codec).1 = (w.build b y codec).1 ∧
        ((w.build b y codec).2.build a x codec).1 = (w.build a x codec).1 ∧
        Disk.Same ((w.build a x codec).2.build b y codec).2.disk
          ((w.build b y codec).2.build a x codec).2.disk) ∧
      ((w.build a x codec).2.build a x codec).1 = (w.build a x codec).1 ∧
        Disk.Same ((w.build a x codec).2.build a x codec).2.disk (w.build a x codec).2.disk := by
  have hab := hmeet b (by simp) a (by simp)
  have hba := hmeet a (by simp) b (by simp)
  have haa := hmeet a (by simp) a (by simp)
  simp only [World.build_eq]
  refine ⟨⟨?_, ?_, ?_⟩, ?_, ?_⟩
  · exact (ha.build_build hb hab x y codec).1
  · exact (hb.build_build ha hba y x codec).1
  · exact ha.same_build_comm hb hne hab hba x y codec
  · exact (ha.build_build ha haa x x codec).1
  · exact ha.same_build_again haa x codec

/-! ## Two wheels in one directory -/

namespace Neighbours

/-- A disk with nothing on it but its root. -/
def bare : Disk := ⟨Crossing.folder [], []⟩

theorem node?_bare {l : Location} (hl : l ≠ []) : bare.node? l = none := by
  have hempty : ∀ names, Place.empty.descend names = Place.empty := by
    intro names
    induction names with
    | nil => rfl
    | cons name names ih => exact ih
  have hr : l.reverse ≠ [] := by simpa using hl
  obtain ⟨name, names, hnames⟩ := List.exists_cons_of_ne_nil hr
  rw [Disk.node?, Disk.place, hnames]
  exact congrArg Place.node (hempty names)

/-- Two programs, and a directory for the wheels with an older one in it. -/
def disk : Disk :=
  (((bare.put [Utf8.encode "t"] (.file 0o755 [0x7F])).put [Utf8.encode "u"]
    (.file 0o755 [0x7F, 0x45])).put [Utf8.encode "out"] (.directory 0o755)).put
    [Utf8.encode "x-1-py3-none-win_amd64.whl", Utf8.encode "out"] (.file 0o600 [])

theorem isTree_disk : disk.IsTree := by
  have hbare : bare.IsTree := by
    refine ⟨by decide, fun name l hn => ?_⟩
    rw [node?_bare (by simp)] at hn
    cases hn
  have ht := hbare.put (l := [Utf8.encode "t"]) (n := .file 0o755 [0x7F]) (by decide +kernel)
    (by decide +kernel)
  have hu := ht.put (l := [Utf8.encode "u"]) (n := .file 0o755 [0x7F, 0x45]) (by decide +kernel)
    (by decide +kernel)
  have hout := hu.put (l := [Utf8.encode "out"]) (n := .directory 0o755) (by decide +kernel)
    (by decide +kernel)
  exact hout.put (by decide +kernel) (by decide +kernel)

theorem hasNoLinks_disk : disk.HasNoLinks := by
  have hbare : bare.HasNoLinks := by
    intro l target hn
    by_cases hl : l = []
    · subst hl
      cases hn
    · rw [node?_bare hl] at hn
      cases hn
  exact (((hbare.put rfl).put rfl).put rfl).put rfl

/-- A world with that disk. -/
def world : World := ⟨⟨"linux", "x86_64"⟩, disk, []⟩

/-- A request for the wheel that is there. -/
def older : BuildRequest := Crossing.request "out"

/-- A request for a wheel of the other program, for another platform. -/
def other : BuildRequest :=
  { older with binary := .ofString "u", platform := ⟨"manylinux2014_x86_64"⟩ }

theorem ready {r : BuildRequest} (h : r ∈ [older, other]) : disk.Ready r where
  tree := isTree_disk
  noLinks := hasNoLinks_disk
  directory := by revert r; decide +kernel
  bare := by revert r; decide +kernel

/-- The programs are beside the directory, the wheels inside. -/
theorem not_meet : ∀ r ∈ [older, other], ∀ s ∈ [older, other],
    ¬disk.Meet r.binary s.wheelPath := by
  have hbinary : ∀ r ∈ [older, other],
      (disk.slot r.binary .busy).map List.length = .ok 1 := by decide +kernel
  have hwheel : ∀ r ∈ [older, other],
      (disk.slot r.wheelPath .busy).map List.length = .ok 2 := by decide +kernel
  rintro r hr s hs ⟨l, hl, hl'⟩
  have h₁ := hbinary r hr
  have h₂ := hwheel s hs
  rw [hl.2, Except.map, Except.ok.injEq] at h₁
  rw [hl'.2, Except.map, Except.ok.injEq] at h₂
  omega

end Neighbours

/-- One of two builds into a directory replaces an older wheel, and they can go in either order. -/
theorem build_order_neighbours :
    let w := Neighbours.world
    let a := Neighbours.older
    let b := Neighbours.other
    let c := Zip.stored
    (((w.build a none c).2.build b (some 0) c).1 = (w.build b (some 0) c).1 ∧
        ((w.build b (some 0) c).2.build a none c).1 = (w.build a none c).1 ∧
        Disk.Same ((w.build a none c).2.build b (some 0) c).2.disk
          ((w.build b (some 0) c).2.build a none c).2.disk) ∧
      ((w.build a none c).2.build a none c).1 = (w.build a none c).1 ∧
        Disk.Same ((w.build a none c).2.build a none c).2.disk (w.build a none c).2.disk :=
  build_order (Neighbours.ready (by simp)) (Neighbours.ready (by simp)) (by decide +kernel)
    Neighbours.not_meet none (some 0) Zip.stored

end Wheelwright
