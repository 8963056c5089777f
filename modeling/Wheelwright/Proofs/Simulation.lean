import Wheelwright.Build
import Wheelwright.Simulation
/-!
# How computations end on a simulated machine

What a simulated computation gives and which disk it leaves depends on the machine and the disk it
begins with, never on what was reported before. `Ends x m d a e` says what it gives and leaves, and
is silent about the journal. The main statements are

* `Ends.eq_of_run` — a run that is at hand ended as is said of the computation;
* `Ends.bind`, `Ends.run_bind` and `Ends.run_bind_error` — a computation in steps ends as its last
  step does, or as the first one that fails.
-/

namespace Wheelwright.Simulation

variable {α β ε : Type} {m : Machine} {d e f : Disk}

/-- Begun on the machine `m` with the disk `d`, the computation gives `a` and leaves the disk
`e`. -/
def Ends (x : Simulation α) (m : Machine) (d : Disk) (a : α) (e : Disk) : Prop :=
  ∀ journal, ∃ journal', x ⟨m, d, journal⟩ = (a, ⟨m, e, journal'⟩)

namespace Ends

/-! ## Computations that cannot fail -/

section plain

variable {x : Simulation α} {a b : α} {g : α → Simulation β} {c : β}

/-- How a run that is at hand ended. -/
theorem eq_of_run {w w' : World} {k : Disk → α × Disk}
    (h : Ends x w.machine w.disk (k w.disk).1 (k w.disk).2) (hr : x.run w = (b, w')) :
    k w.disk = (b, w'.disk) := by
  obtain ⟨_, hx⟩ := h w.journal
  rw [StateT.run, hx] at hr
  cases hr
  rfl

/-- A run that ends is at hand. -/
theorem exists_run (h : Ends x m d a e) (journal : List Event) :
    ∃ journal', x.run ⟨m, d, journal⟩ = (a, ⟨m, e, journal'⟩) := h journal

protected theorem pure (a : α) : Ends (pure a) m d a d := fun journal => ⟨journal, rfl⟩

/-- A computation in two steps ends as the second one does. -/
theorem bind (h : Ends x m d a e) (h' : Ends (g a) m e c f) : Ends (x >>= g) m d c f := by
  intro journal
  obtain ⟨journal₁, hx⟩ := h journal
  obtain ⟨journal₂, hg⟩ := h' journal₁
  refine ⟨journal₂, ?_⟩
  rw [← hg]
  exact congrArg (fun r : α × World => g r.1 r.2) hx

end plain

/-! ## Computations that may fail -/

section failing

variable {x : ExceptT ε Simulation α} {a : α} {g : α → ExceptT ε Simulation β} {r : Except ε β}
  {error : ε}

theorem run_pure (a : α) : Ends (pure a : ExceptT ε Simulation α).run m d (.ok a) d :=
  Ends.pure _

theorem run_throw (error : ε) :
    Ends (throw error : ExceptT ε Simulation α).run m d (.error error) d :=
  Ends.pure _

/-- What cannot fail gives what it gives. -/
theorem run_lift {x : Simulation α} (h : Ends x m d a e) :
    Ends (ExceptT.lift x : ExceptT ε Simulation α).run m d (.ok a) e :=
  Ends.bind (g := fun a => pure (Except.ok a)) h (Ends.pure _)

/-- After a step that succeeds the next one decides. -/
theorem run_bind (h : Ends x.run m d (.ok a) e) (h' : Ends (g a).run m e r f) :
    Ends (x >>= g).run m d r f :=
  Ends.bind (g := ExceptT.bindCont g) h h'

/-- After a step that fails nothing is done. -/
theorem run_bind_error (h : Ends x.run m d (.error error) e) :
    Ends (x >>= g).run m d (.error error) e :=
  Ends.bind (g := ExceptT.bindCont g) h (Ends.pure _)

/-- A function of what a computation gives is applied to it, if there is anything. -/
theorem run_map {s : Except ε α} (h : Ends x.run m d s e) (k : α → β) :
    Ends (k <$> x).run m d (s.map k) e := by
  rw [ExceptT.run_map, map_eq_pure_bind]
  exact Ends.bind h (.pure _)

end failing
end Ends

/-! ## The operations of the machine -/

variable {p : Path} {l : Location} {cause : Fault}

theorem ends_log (event : Event) : Ends (Host.log event) m d () d :=
  fun journal => ⟨journal ++ [event], rfl⟩

theorem ends_machine : Ends Host.machine m d m d := fun journal => ⟨journal, rfl⟩

theorem ends_isRegularFile (p : Path) : Ends (Host.isRegularFile p) m d (d.isRegularFile p) d :=
  fun journal => ⟨journal, rfl⟩

theorem ends_isDirectory (p : Path) : Ends (Host.isDirectory p) m d (d.isDirectory p) d :=
  fun journal => ⟨journal, rfl⟩

theorem ends_readFile (p : Path) : Ends (Host.readFile p) m d (d.read p) d :=
  fun journal => ⟨journal, rfl⟩

/-- What may change the disk changes it, if that succeeds. -/
theorem ends_settle_ok {g : Disk → Except Fault Disk} (h : g d = .ok e) :
    Ends (fun w : World => w.settle (g w.disk)) m d (.ok ()) e := by
  intro journal
  exact ⟨journal, by simp only [h, World.settle]⟩

/-- What may change the disk leaves it alone, if that fails. -/
theorem ends_settle_error {g : Disk → Except Fault Disk} (h : g d = .error cause) :
    Ends (fun w : World => w.settle (g w.disk)) m d (.error cause) d := by
  intro journal
  exact ⟨journal, by simp only [h, World.settle]⟩

theorem ends_makeDirectory_ok (h : d.makeDirectory p = .ok e) :
    Ends (Host.makeDirectory p) m d (.ok ()) e := ends_settle_ok (g := (·.makeDirectory p)) h

theorem ends_makeDirectory_error (h : d.makeDirectory p = .error cause) :
    Ends (Host.makeDirectory p) m d (.error cause) d :=
  ends_settle_error (g := (·.makeDirectory p)) h

theorem ends_stage_ok (h : d.stage p = .ok (l, e)) : Ends (Host.stage p) m d (.ok l) e := by
  intro journal
  refine ⟨journal, ?_⟩
  show World.stage _ p = _
  simp only [World.stage, h]

theorem ends_stage_error (h : d.stage p = .error cause) :
    Ends (Host.stage p) m d (.error cause) d := by
  intro journal
  refine ⟨journal, ?_⟩
  show World.stage _ p = _
  simp only [World.stage, h]

theorem ends_fill (staged : Location) (content : Bytes) :
    Ends (Host.fill staged content) m d (.ok ()) (d.fill staged content) :=
  ends_settle_ok (g := fun d => .ok (d.fill staged content)) rfl

theorem ends_setMode (staged : Location) (mode : Nat) :
    Ends (Host.setMode staged mode) m d (.ok ()) (d.setMode staged mode) :=
  ends_settle_ok (g := fun d => .ok (d.setMode staged mode)) rfl

theorem ends_publish_ok (h : d.publish l p = .ok e) : Ends (Host.publish l p) m d (.ok ()) e :=
  ends_settle_ok (g := (·.publish l p)) h

theorem ends_publish_error (h : d.publish l p = .error cause) :
    Ends (Host.publish l p) m d (.error cause) d := ends_settle_error (g := (·.publish l p)) h

theorem ends_discard (staged : Location) : Ends (Host.discard staged) m d () (d.drop staged) :=
  fun journal => ⟨journal, rfl⟩

end Wheelwright.Simulation
