import ContainerDocs.Proofs.System.Ignore
import ContainerDocs.Proofs.System.TextFiles

/-!
# What steps look at

A step that reads a file does the same on machines that differ in other files only. Where it stops
it need not stop for the same reason, since a path may lead through a file on one machine and
nowhere on the other.

## Main definitions

* `Files.Misses` — a path leads to none of the places of a class.
* `Run.Keeps` — a step keeps what stands at the places of a class.
* `Run.Agree` — what a step does on two machines: it stops on both, or it gives the same on both.
* `Run.Reads` — a step keeps places and agrees on machines that are alike.
* `Run.StopsKeeping` — a step that stops has kept places, but for a file that it was to write.

## Main statements

* `Run.Ignores.reads` — what a step ignores it does not read.
* `Run.Reads.bind` — steps in a row read what one of them reads.
* `Run.reads_readText_bind` — a step that reads a text.
-/

namespace ContainerDocs

def Files.Misses (fs : Files) (directory : Place) (free : Place → Prop) (path : String) : Prop :=
  ∀ p, fs.resolve directory path = .ok p → ¬ free p

instance (fs : Files) (directory : Place) (free : Place → Prop) [DecidablePred free]
    (path : String) : Decidable (fs.Misses directory free path) :=
  match h : fs.resolve directory path with
  | .ok p => decidable_of_iff (¬ free p)
      ⟨fun hp q hq => by cases h.symm.trans hq; exact hp, fun hmisses => hmisses p h⟩
  | .error _ => isTrue fun _ hq => nomatch h.symm.trans hq

namespace Run

variable {α β : Type} {kept free : Place → Prop} {w : World} {base : Files}

/-! ## What is kept -/

/-- In a world, a step keeps the places of a class whatever it starts from. -/
def Keeps (kept : Place → Prop) (w : World) (step : Run α) : Prop :=
  ∀ m : Machine, m.files.Keeps kept (exec step w m).2.files

theorem Keeps.of_exec {step : Run α} (h : Keeps kept w step) {m m' : Machine} {r : Except Stop α}
    (hexec : exec step w m = (r, m')) : m.files.Keeps kept m'.files := by
  have hm := h m
  rwa [hexec] at hm

theorem keeps_readText (path : String) : Keeps kept w (readText path) := by
  intro m
  rw [exec_readText]
  split <;> exact .refl kept _

theorem keeps_printLine (text : Text) : Keeps kept w (printLine text) := by
  intro m
  rw [exec_printLine]
  split <;> exact .refl kept _

theorem Keeps.bind {step : Run α} {next : α → Run β} (h : Keeps kept w step)
    (h' : ∀ a, Keeps kept w (next a)) : Keeps kept w (step >>= next) := by
  intro m
  rw [exec_bind]
  rcases hstep : exec step w m with ⟨e | a, m₁⟩
  · exact h.of_exec hstep
  · exact (h.of_exec hstep).trans (h' a m₁)

theorem Keeps.catching {step : Run α} (h : Keeps kept w step) : Keeps kept w (catching step) := by
  intro m
  rw [exec_catching]
  exact h { m with catching := true, cancelled := false }

theorem Ignores.keeps {step : Run α} (h : Ignores kept (fun _ => False) w step) :
    Keeps kept w step :=
  fun m => (h m m (.refl _ m)).2.2.1.files

/-! ## What is looked at -/

/-- What has been done on two machines: both runs have stopped, or they have given the same and the
machines are alike apart from the places of a class. -/
inductive Agree (free : Place → Prop) :
    Except Stop α × Machine → Except Stop α × Machine → Prop
  | given {m m' : Machine} (a : α) (h : m.Alike free m') : Agree free (.ok a, m) (.ok a, m')
  | stopped (e e' : Stop) (m m' : Machine) : Agree free (.error e, m) (.error e', m')

/-- In a world, a step prints nothing and keeps the places of a class, and it agrees on machines
that are alike apart from another class. The machines have the directories of a tree. -/
def Reads (base : Files) (kept free : Place → Prop) (w : World) (step : Run α) : Prop :=
  ∀ m m' : Machine, base.SameDirectories m.files → m.Alike free m' →
    m.Keeps kept (exec step w m).2 ∧ Agree free (exec step w m) (exec step w m')

theorem Ignores.reads {step : Run α} (h : Ignores kept free w step) :
    Reads base kept free w step := by
  intro m m' _ hm
  obtain ⟨hsame, halike, hkeeps, -⟩ := h m m' hm
  refine ⟨hkeeps, ?_⟩
  rcases hr : exec step w m with ⟨e | a, m₁⟩ <;> rcases hr' : exec step w m' with ⟨e' | a', m₁'⟩ <;>
    rw [hr] at hsame halike <;> rw [hr'] at hsame halike <;> cases hsame
  · exact .stopped ..
  · exact .given a halike

theorem Reads.bind {step : Run α} {next : α → Run β} (h : Reads base kept free w step)
    (h' : ∀ a, Reads base kept free w (next a)) : Reads base kept free w (step >>= next) := by
  intro m m' hbase hm
  obtain ⟨hkeeps, hagree⟩ := h m m' hbase hm
  rw [exec_bind, exec_bind]
  rcases hr : exec step w m with ⟨e | a, m₁⟩ <;> rcases hr' : exec step w m' with ⟨e' | a', m₁'⟩ <;>
    rw [hr] at hkeeps hagree <;> rw [hr'] at hagree
  · exact ⟨hkeeps, .stopped ..⟩
  · cases hagree
  · cases hagree
  · cases hagree with
    | given _ halike =>
      have hbase₁ : base.SameDirectories m₁.files := hbase.trans hkeeps.files.sameDirectories
      obtain ⟨hkeeps', hagree'⟩ := h' a m₁ m₁' hbase₁ halike
      exact ⟨hkeeps.trans hkeeps', hagree'⟩

theorem Reads.map {step : Run α} (h : Reads base kept free w step) (f : α → β) :
    Reads base kept free w (f <$> step) := by
  rw [map_eq_pure_bind]
  exact h.bind fun a => (ignores_pure (f a)).reads

/-- A step that reads the text at a path and stops when there is none. The path leads to none of
the places that may differ. -/
theorem reads_readText_bind {path : String} {next : Except SystemError String → Run α}
    (hpath : base.Misses w.place free path)
    (hok : ∀ s, Reads base kept free w (next (.ok s)))
    (herror : ∀ e, ∃ stop, next (.error e) = throw stop) :
    Reads base kept free w (readText path >>= next) := by
  intro m m' hbase hm
  rw [exec_bind, exec_bind, exec_readText, exec_readText]
  cases hplace : base.resolve w.place path with
  | ok p =>
    have hplace₁ : m.files.resolve w.place path = .ok p := hbase.resolve hplace
    have hsame : m'.files.readText w.place path = m.files.readText w.place path := by
      rw [Files.readText, Files.readText, hm.files.read_eq hplace₁ (hpath p hplace)]
    rw [hsame]
    rcases m.files.readText w.place path with (e | e) | s
    · obtain ⟨stop, hstop⟩ := herror e
      dsimp only
      rw [hstop]
      exact ⟨.refl kept _, .stopped ..⟩
    · exact ⟨.refl kept _, .stopped ..⟩
    · exact hok s m m' hbase hm
  | error e =>
    have hnowhere : ∀ fs : Files, base.SameDirectories fs →
        ∃ e, fs.readText w.place path = .error (.system e) := by
      intro fs hfs
      cases hfs' : fs.resolve w.place path with
      | ok p =>
        rw [hfs.resolve_eq_ok.1 hfs'] at hplace
        cases hplace
      | error e => exact ⟨e, by rw [Files.readText, Files.read, hfs']; rfl⟩
    have hbase' : base.SameDirectories m'.files :=
      hbase.trans hm.files.sameDirectories
    obtain ⟨e₁, h₁⟩ := hnowhere _ hbase
    obtain ⟨e₂, h₂⟩ := hnowhere _ hbase'
    obtain ⟨stop₁, hstop₁⟩ := herror e₁
    obtain ⟨stop₂, hstop₂⟩ := herror e₂
    rw [h₁, h₂]
    dsimp only
    rw [hstop₁, hstop₂]
    exact ⟨.refl kept _, .stopped ..⟩

theorem Reads.keeps {step : Run α} (h : ∀ base, Reads base kept (fun _ => False) w step) :
    Keeps kept w step :=
  fun m => (h m.files m m (.refl _ _) (.refl _ m)).1.files

/-! ## Stops -/

/-- Where a step stops in a world, it has kept the places of a class, but for the file at the path
that it was to write to. -/
def StopsKeeping (kept : Place → Prop) (target : Option String) (w : World) (step : Run α) : Prop :=
  ∀ m m' : Machine, ∀ stop, exec step w m = (.error stop, m') →
    LeavesOff w stop kept target m.files m'.files

variable {target : Option String}

theorem Keeps.stopsKeeping {step : Run α} (h : Keeps kept w step) :
    StopsKeeping kept target w step :=
  fun _ _ _ hexec => .of_keeps (h.of_exec hexec)

/-- Steps in a row stop in the first one or in the second one. -/
theorem StopsKeeping.after {step : Run α} {next : α → Run β} (h : Keeps kept w step)
    (h' : ∀ a, StopsKeeping kept target w (next a)) :
    StopsKeeping kept target w (step >>= next) := by
  intro m m' stop hexec
  rw [exec_bind] at hexec
  rcases hstep : exec step w m with ⟨e | a, m₁⟩ <;> rw [hstep] at hexec
  · cases hexec
    exact .of_keeps (h.of_exec hstep)
  · exact .after (h.of_exec hstep) (h' a m₁ m' stop hexec)

theorem StopsKeeping.bind_pure {step : Run α} (h : StopsKeeping kept target w step) (f : α → β) :
    StopsKeeping kept target w (step >>= fun a => pure (f a)) := by
  intro m m' stop hexec
  rw [exec_bind] at hexec
  rcases hstep : exec step w m with ⟨e | a, m₁⟩ <;> rw [hstep] at hexec <;> cases hexec
  exact h m m' stop hstep

/-- A write that is noted is the last thing that a step stops in. -/
theorem stopsKeeping_writeText (path : String) (text : Text) (line : String) :
    StopsKeeping kept (some path) w (writeText path text >>= fun _ => info line) :=
  fun _ _ _ hexec => leavesOff_of_writeText (exec_writeText_info_eq_error hexec)

end Run
end ContainerDocs
