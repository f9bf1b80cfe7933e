import ContainerDocs.Proofs.System.Quiet
import ContainerDocs.Proofs.Tool.Frame

/-!
# Steps that the disk determines

In a steady world, what a step gives can depend on the files and on the number of temporary files
only, and not on the time or on what was started before. Commands that write no report and the
search for tools are such steps, and they leave the files as they are.

## Main definitions

* `Disk` — the files of a machine and the number of temporary files.
* `Run.Gives` — on every machine with a disk, a step gives a result and leaves another disk.
* `Run.Determined` — what a step gives is determined by the disk, and it leaves the files as they
  are.

## Main statements

* `Run.Determined.bind` — steps in a row are determined if each of them is.
* `Run.determined_command` — what a command gives is determined.
-/

namespace ContainerDocs

/-! ## Disks -/

/-- What tools look at on a machine: the files, and the number of temporary files so far. -/
structure Disk where
  files : Files
  temporaries : Nat

namespace Disk

variable {makes : Bool} {d d' d'' : Disk}

/-- The files are the same, and there were no more temporary files unless a step makes some. -/
structure Extends (makes : Bool) (d d' : Disk) : Prop where
  files : d'.files = d.files
  le : d.temporaries ≤ d'.temporaries
  same : makes = false → d'.temporaries = d.temporaries

theorem Extends.refl (makes : Bool) (d : Disk) : Extends makes d d := ⟨rfl, le_rfl, fun _ => rfl⟩

theorem Extends.trans (h : Extends makes d d') (h' : Extends makes d' d'') :
    Extends makes d d'' :=
  ⟨h'.files.trans h.files, h.le.trans h'.le, fun hm => (h'.same hm).trans (h.same hm)⟩

theorem Extends.eq (h : Extends false d d') : d' = d := by
  obtain ⟨files, temporaries⟩ := d'
  obtain rfl : files = d.files := h.files
  obtain rfl : temporaries = d.temporaries := h.same rfl
  rfl

/-- A machine with a disk on which no cancellation was asked for. -/
structure On (d : Disk) (m : Machine) : Prop where
  files : m.files = d.files
  temporaries : m.temporaries = d.temporaries
  uncancelled : m.cancelled = false

end Disk

/-! ## Steps -/

namespace Run

variable {α β : Type} {w : World} {makes : Bool} {e : Stop}

/-- On every machine with a property, a step gives a result and leaves a machine with another
property. -/
def Gives (w : World) (before : Machine → Prop) (step : Run α) (r : Except Stop α)
    (after : Machine → Prop) : Prop :=
  ∀ m, before m → ∃ m', exec step w m = (r, m') ∧ after m'

section Gives

variable {before between after : Machine → Prop} {step : Run α} {next : α → Run β} {a : α}

theorem Gives.bind {r : Except Stop β} (h : Gives w before step (.ok a) between)
    (h' : Gives w between (next a) r after) : Gives w before (step >>= next) r after := by
  intro m hm
  obtain ⟨m', hexec, hm'⟩ := h m hm
  obtain ⟨m'', hexec', hm''⟩ := h' m' hm'
  exact ⟨m'', by rw [exec_bind, hexec]; exact hexec', hm''⟩

theorem Gives.exists_bind {P : Except Stop β → Prop} (h : Gives w before step (.ok a) between)
    (h' : ∃ r, Gives w between (next a) r after ∧ P r) :
    ∃ r, Gives w before (step >>= next) r after ∧ P r := by
  obtain ⟨r, hr, hp⟩ := h'
  exact ⟨r, h.bind hr, hp⟩

theorem Gives.bind_error (h : Gives w before step (.error e) after) :
    Gives w before (step >>= next) (.error e) after := by
  intro m hm
  obtain ⟨m', hexec, hm'⟩ := h m hm
  exact ⟨m', by rw [exec_bind, hexec], hm'⟩

theorem Gives.attempt {r : Except Stop α} (h : Gives w before step r after) :
    Gives w before (Adapter.attempt step) (.ok r) after := by
  intro m hm
  obtain ⟨m', hexec, hm'⟩ := h m hm
  exact ⟨m', by rw [exec_attempt, hexec], hm'⟩

theorem Gives.tryCatch_error {handle : Stop → Run α} {r : Except Stop α}
    (h : Gives w before step (.error e) between) (h' : Gives w between (handle e) r after) :
    Gives w before (tryCatch step handle) r after := by
  intro m hm
  obtain ⟨m', hexec, hm'⟩ := h m hm
  obtain ⟨m'', hexec', hm''⟩ := h' m' hm'
  exact ⟨m'', by rw [exec_tryCatch, hexec]; exact hexec', hm''⟩

theorem Gives.tryCatch_ok {handle : Stop → Run α} (h : Gives w before step (.ok a) after) :
    Gives w before (tryCatch step handle) (.ok a) after := by
  intro m hm
  obtain ⟨m', hexec, hm'⟩ := h m hm
  exact ⟨m', by rw [exec_tryCatch, hexec], hm'⟩

theorem Gives.mono {r : Except Stop α} {after' : Machine → Prop}
    (h : Gives w before step r after) (hafter : ∀ m, after m → after' m) :
    Gives w before step r after' := by
  intro m hm
  obtain ⟨m', hexec, hm'⟩ := h m hm
  exact ⟨m', hexec, hafter m' hm'⟩

theorem gives_pure (w : World) (before : Machine → Prop) (a : α) :
    Gives w before (pure a) (.ok a) before :=
  fun m hm => ⟨m, rfl, hm⟩

theorem gives_throw (w : World) (before : Machine → Prop) (e : Stop) :
    Gives w before (throw e : Run α) (.error e) before :=
  fun m hm => ⟨m, rfl, hm⟩

theorem gives_ofExcept (w : World) (before : Machine → Prop) (r : Except Stop α) :
    Gives w before (ofExcept r) r before :=
  fun m hm => ⟨m, exec_ofExcept .., hm⟩

theorem gives_note (w : World) (d : Disk) (level : Level) (text : String) :
    Gives w d.On (note level text) (.ok ()) d.On :=
  fun _ hm => ⟨_, rfl, hm.files, hm.temporaries, hm.uncancelled⟩

/-- A look at the machine that sees its files only. -/
theorem exists_gives_get_bind {d : Disk} {next : Machine → Run α} {P : Except Stop α → Prop}
    (hsame : ∀ m m' : Machine, m'.files = m.files → next m' = next m) (m₀ : Machine)
    (hm₀ : m₀.files = d.files) (h : ∃ r, Gives w d.On (next m₀) r after ∧ P r) :
    ∃ r, Gives w d.On (get >>= next) r after ∧ P r := by
  obtain ⟨r, hr, hp⟩ := h
  refine ⟨r, fun m hm => ?_, hp⟩
  obtain ⟨m', hexec, hm'⟩ := hr m hm
  refine ⟨m', ?_, hm'⟩
  rw [exec_bind, exec_get]
  dsimp only
  rw [hsame m₀ m (hm.files.trans hm₀.symm)]
  exact hexec

theorem Gives.fst_exec {r : Except Stop α} (h : Gives w before step r after) {m : Machine}
    (hm : before m) : (exec step w m).1 = r := by
  obtain ⟨m', hexec, -⟩ := h m hm
  rw [hexec]

/-- A step has one result on a disk. -/
theorem Gives.unique {d : Disk} {r r' : Except Stop α} {after' : Machine → Prop}
    (h : Gives w d.On step r after) (h' : Gives w d.On step r' after') : r = r' := by
  let m : Machine := { files := d.files, temporaries := d.temporaries }
  have hm : d.On m := ⟨rfl, rfl, rfl⟩
  exact (h.fst_exec hm).symm.trans (h'.fst_exec hm)

theorem gives_isCancelled (hw : w.IsSteady) (d : Disk) :
    Gives w d.On isCancelled (.ok false) d.On := by
  intro m hm
  obtain ⟨c, hexec, hiff⟩ := exec_isCancelled w m
  obtain rfl : c = false :=
    Bool.eq_false_iff.2 fun hc => not_cancelledBy hw.isQuiet hm.uncancelled _ (hiff.1 hc)
  exact ⟨m, hexec, hm⟩

end Gives

/-- In a world, what a step gives is determined by the disk, has a property if it is a value and
another one if it is a stop. The step leaves the files as they are, and it makes temporary files
only if `makes` tells so. -/
def Determined (w : World) (makes : Bool) (stops : Stop → Prop) (given : α → Prop)
    (step : Run α) : Prop :=
  ∀ d : Disk, ∃ r d', Gives w d.On step r d'.On ∧ d.Extends makes d' ∧
    (∀ a, r = .ok a → given a) ∧ ∀ e, r = .error e → stops e

section Determined

variable {stops stops' : Stop → Prop} {given : α → Prop} {given' : β → Prop} {step : Run α}

theorem Determined.bind {next : α → Run β} (h : Determined w makes stops given step)
    (h' : ∀ a, given a → Determined w makes stops given' (next a)) :
    Determined w makes stops given' (step >>= next) := by
  intro d
  obtain ⟨r, d₁, hr, hext, hgiven, hstops⟩ := h d
  cases r with
  | error e =>
    refine ⟨.error e, d₁, hr.bind_error, hext, ?_, ?_⟩
    · rintro _ ⟨⟩
    · rintro _ ⟨⟩
      exact hstops e rfl
  | ok a =>
    obtain ⟨r', d₂, hr', hext', hgiven', hstops'⟩ := h' a (hgiven a rfl) d₁
    exact ⟨r', d₂, hr.bind hr', hext.trans hext', hgiven', hstops'⟩

theorem Determined.mono {given' : α → Prop} (h : Determined w makes stops given step)
    (hgiven : ∀ a, given a → given' a) (hstops : ∀ e, stops e → stops' e) :
    Determined w makes stops' given' step := by
  intro d
  obtain ⟨r, d', hr, hext, hg, hs⟩ := h d
  exact ⟨r, d', hr, hext, fun a ha => hgiven a (hg a ha), fun e he => hstops e (hs e he)⟩

theorem Determined.attempt (h : Determined w makes stops given step) :
    Determined w makes stops'
      (fun r => (∀ a, r = .ok a → given a) ∧ ∀ e, r = .error e → stops e)
      (Adapter.attempt step) := by
  intro d
  obtain ⟨r, d', hr, hext, hg, hs⟩ := h d
  refine ⟨.ok r, d', hr.attempt, hext, ?_, ?_⟩
  · rintro _ ⟨⟩
    exact ⟨hg, hs⟩
  · rintro _ ⟨⟩

theorem Determined.tryCatch {handle : Stop → Run α} (h : Determined w makes stops given step)
    (h' : ∀ e, stops e → Determined w makes stops' given (handle e)) :
    Determined w makes stops' given (tryCatch step handle) := by
  intro d
  obtain ⟨r, d₁, hr, hext, hg, hs⟩ := h d
  cases r with
  | ok a =>
    refine ⟨.ok a, d₁, hr.tryCatch_ok, hext, hg, ?_⟩
    rintro _ ⟨⟩
  | error e =>
    obtain ⟨r', d₂, hr', hext', hg', hs'⟩ := h' e (hs e rfl) d₁
    exact ⟨r', d₂, hr.tryCatch_error hr', hext.trans hext', hg', hs'⟩

theorem Determined.ite {c : Prop} [Decidable c] {step' : Run α}
    (h : Determined w makes stops given step) (h' : Determined w makes stops given step') :
    Determined w makes stops given (if c then step else step') := by
  split_ifs
  · exact h
  · exact h'

theorem determined_of_gives {r : Except Stop α} (h : ∀ d : Disk, Gives w d.On step r d.On)
    (hgiven : ∀ a, r = .ok a → given a) (hstops : ∀ e, r = .error e → stops e) :
    Determined w makes stops given step :=
  fun d => ⟨r, d, h d, .refl makes d, hgiven, hstops⟩

theorem determined_pure {a : α} (h : given a) : Determined w makes stops given (pure a) :=
  determined_of_gives (fun d => gives_pure w d.On a) (by rintro _ ⟨⟩; exact h) (by rintro _ ⟨⟩)

theorem Determined.map (h : Determined w makes stops given step) (f : α → β) :
    Determined w makes stops (fun _ => True) (f <$> step) := by
  rw [map_eq_pure_bind]
  exact h.bind fun _ _ => determined_pure trivial

theorem determined_throw (h : stops e) : Determined w makes stops given (throw e : Run α) :=
  determined_of_gives (fun d => gives_throw w d.On e) (by rintro _ ⟨⟩) (by rintro _ ⟨⟩; exact h)

theorem determined_ofExcept {r : Except Stop α} (hgiven : ∀ a, r = .ok a → given a)
    (hstops : ∀ e, r = .error e → stops e) : Determined w makes stops given (ofExcept r) :=
  determined_of_gives (fun d => gives_ofExcept w d.On r) hgiven hstops

theorem determined_read : Determined w makes stops (· = w) (read : Run World) :=
  determined_of_gives (fun _ m hm => ⟨m, exec_read w m, hm⟩) (by rintro _ ⟨⟩; rfl)
    (by rintro _ ⟨⟩)

theorem determined_isCancelled (hw : w.IsSteady) :
    Determined w makes stops (· = false) isCancelled :=
  determined_of_gives (gives_isCancelled hw) (by rintro _ ⟨⟩; rfl) (by rintro _ ⟨⟩)

theorem determined_note (level : Level) (text : String) :
    Determined w makes stops (fun _ => True) (note level text) :=
  determined_of_gives (fun d => gives_note w d level text) (fun _ _ => trivial) (by rintro _ ⟨⟩)

theorem determined_pause (seconds : Rat) :
    Determined w makes stops (fun _ => True) (pause seconds) :=
  determined_of_gives (fun _ _ hm => ⟨_, rfl, hm.files, hm.temporaries, hm.uncancelled⟩)
    (fun _ _ => trivial) (by rintro _ ⟨⟩)

theorem determined_place : Determined w makes stops (fun _ => True) place :=
  determined_of_gives (fun _ m hm => ⟨m, exec_place w m, hm⟩) (fun _ _ => trivial)
    (by rintro _ ⟨⟩)

theorem determined_get_bind {next : Machine → Run α}
    (hsame : ∀ m m' : Machine, m'.files = m.files → next m' = next m)
    (h : ∀ m, Determined w makes stops given (next m)) :
    Determined w makes stops given (get >>= next) := by
  intro d
  let m₀ : Machine := { files := d.files }
  obtain ⟨r, d', hr, hext, hrest⟩ := h m₀ d
  obtain ⟨r', hr', hrest'⟩ : ∃ r, Gives w d.On (get >>= next) r d'.On ∧
      (∀ a, r = .ok a → given a) ∧ ∀ e, r = .error e → stops e :=
    exists_gives_get_bind hsame m₀ rfl ⟨r, hr, hrest⟩
  exact ⟨r', d', hr', hext, hrest'⟩

end Determined

/-! ## Commands -/

/-- In a steady world whose commands write reports only, a command leaves the files as they are
unless it is told the path of a report. -/
theorem determined_command (hw : w.IsSteady) (hreports : w.WritesReportsOnly) {argv : List String}
    {last : String} (hlast : argv.getLast? = some last)
    (hreport : ∀ n, last ≠ Adapter.reportPath n) (timeout : Binary64)
    (watching : Bool) (environment : Option (List (String × String))) (combined : Bool) :
    Determined w makes (fun e => ∃ f, e = .failure (.tool f) ∧ f.IsEnd argv timeout)
      (fun _ => True) (command argv timeout watching environment combined) := by
  obtain ⟨r, b, hstops, hb, hcommand⟩ :=
    exec_command_steady hw argv timeout watching environment combined
  have hnone : b.report = .none := by
    obtain hnone | hruns := hb
    · exact hnone
    · obtain hnone | ⟨n, hn⟩ := hreports [] argv b (hruns [])
      · exact hnone
      · exact absurd (Option.some.inj (hlast.symm.trans hn)) (hreport n)
  refine determined_of_gives (r := r) (fun d m hm => ?_) (fun _ _ => trivial) hstops
  obtain ⟨m', hexec, hframe, hfiles, -⟩ := hcommand m hm.uncancelled
  have hsame : m'.files = m.files := by
    obtain hfiles | hfiles := hfiles
    · exact hfiles
    · rw [hfiles, Behaviour.leave, hnone]
  exact ⟨m', hexec, hsame.trans hm.files, hframe.temporaries.trans hm.temporaries,
    hframe.cancelled.trans hm.uncancelled⟩

end Run

/-! ## Finding tools -/

namespace Tools

open Run

variable {w : World} {makes : Bool} {stops : Stop → Prop}

theorem determined_setting? (name : String) :
    Determined w makes stops (fun _ => True) (setting? name) :=
  determined_read.bind fun _ _ => determined_pure trivial

theorem determined_directory : Determined w makes stops (fun _ => True) directory := by
  refine (determined_setting? _).bind fun d _ => ?_
  split
  · exact determined_pure trivial
  · exact (determined_setting? _).bind fun _ _ => determined_pure trivial

theorem determined_lookup? (name : String) :
    Determined w makes stops (fun _ => True) (lookup? name) := by
  refine determined_read.bind fun w' _ => ?_
  split
  · exact determined_pure trivial
  · refine determined_directory.bind fun d _ => ?_
    extract_lets path
    refine determined_get_bind (fun m m' hm => ?_) fun m => determined_place.bind fun here _ => ?_
    · rw [hm]
    · exact .ite (determined_pure trivial) (determined_pure trivial)

theorem determined_runtime? : Determined w makes stops (fun _ => True) runtime? :=
  determined_read.bind fun _ _ => determined_pure trivial

end Tools

end ContainerDocs
