import ContainerDocs.Proofs.System.Files
import ContainerDocs.Proofs.System.Run
import ContainerDocs.System.Command

/-!
# What steps do not look at

A step of the analysis does not look at what files hold, apart from the reports that commands write.
So it does the same on machines that differ in other files only, and it leaves machines that differ
no more than before.

## Main definitions

* `Machine.Keeps` — files at places of a class and what has been printed stay.
* `Machine.Alike` — machines that differ in the files at places of a class and in their output only.
* `Run.Ignores` — a step keeps places and does the same on machines that are alike.
* `World.Spares` — a command writes its report to no place of a class.

## Main statements

* `Run.Ignores.bind`, `Run.Ignores.tryCatch` — steps in a row ignore what each of them ignores.
* `Run.ignores_command` — what a command ignores.
-/

namespace ContainerDocs

/-- Two machines differ at most in the files at places of a class and in what they have noted,
printed and paused. -/
structure Machine.Alike (free : Place → Prop) (m m' : Machine) : Prop where
  files : m.files.Alike free m'.files
  clock : m'.clock = m.clock
  started : m'.started = m.started
  cancelled : m'.cancelled = m.cancelled
  catching : m'.catching = m.catching
  temporaries : m'.temporaries = m.temporaries

theorem Machine.Alike.refl (free : Place → Prop) (m : Machine) : m.Alike free m :=
  ⟨.refl free m.files, rfl, rfl, rfl, rfl, rfl⟩

structure Machine.Keeps (kept : Place → Prop) (m m' : Machine) : Prop where
  files : m.files.Keeps kept m'.files
  printed : m'.printed = m.printed

theorem Machine.Keeps.refl (kept : Place → Prop) (m : Machine) : Machine.Keeps kept m m :=
  ⟨.refl kept m.files, rfl⟩

theorem Machine.Keeps.trans {kept : Place → Prop} {m m' m'' : Machine}
    (h : Machine.Keeps kept m m') (h' : Machine.Keeps kept m' m'') : Machine.Keeps kept m m'' :=
  ⟨h.files.trans h'.files, h'.printed.trans h.printed⟩

namespace Run

variable {α β : Type} {kept free : Place → Prop} {w : World}

/-- In a world, a step prints nothing and keeps the places of a class, what it gives has a property,
and it does the same on machines that are alike apart from another class. -/
def IgnoresWith (kept free : Place → Prop) (w : World) (given : α → Prop) (step : Run α) : Prop :=
  ∀ m m' : Machine, m.Alike free m' →
    (exec step w m').1 = (exec step w m).1 ∧ (exec step w m).2.Alike free (exec step w m').2 ∧
      m.Keeps kept (exec step w m).2 ∧ ∀ a, (exec step w m).1 = .ok a → given a

/-- In a world, a step prints nothing, keeps the places of a class and does the same on machines
that are alike apart from another class. -/
def Ignores (kept free : Place → Prop) (w : World) (step : Run α) : Prop :=
  IgnoresWith kept free w (fun _ => True) step

/-! ## Steps in a row -/

theorem IgnoresWith.ignores {given : α → Prop} {step : Run α}
    (h : IgnoresWith kept free w given step) : Ignores kept free w step := by
  intro m m' hm
  obtain ⟨hsame, halike, hkeeps, -⟩ := h m m' hm
  exact ⟨hsame, halike, hkeeps, fun _ _ => trivial⟩

theorem IgnoresWith.bind {given : α → Prop} {given' : β → Prop} {step : Run α} {next : α → Run β}
    (h : IgnoresWith kept free w given step)
    (h' : ∀ a, given a → IgnoresWith kept free w given' (next a)) :
    IgnoresWith kept free w given' (step >>= next) := by
  intro m m' hm
  obtain ⟨hsame, halike, hkeeps, hgiven⟩ := h m m' hm
  rw [exec_bind, exec_bind]
  rcases hr : exec step w m with ⟨e | a, m₁⟩ <;> rcases hr' : exec step w m' with ⟨e' | a', m₁'⟩ <;>
    rw [hr] at hsame halike hkeeps hgiven <;> rw [hr'] at hsame halike <;> cases hsame
  · exact ⟨rfl, halike, hkeeps, fun _ hb => nomatch hb⟩
  · obtain ⟨hsame', halike', hkeeps', hgiven'⟩ := h' a (hgiven a rfl) m₁ m₁' halike
    exact ⟨hsame', halike', hkeeps.trans hkeeps', hgiven'⟩

theorem IgnoresWith.bind_ignores {given : α → Prop} {step : Run α} {next : α → Run β}
    (h : IgnoresWith kept free w given step) (h' : ∀ a, given a → Ignores kept free w (next a)) :
    Ignores kept free w (step >>= next) :=
  IgnoresWith.bind h h'

theorem Ignores.bind_with {given : β → Prop} {step : Run α} {next : α → Run β}
    (h : Ignores kept free w step) (h' : ∀ a, IgnoresWith kept free w given (next a)) :
    IgnoresWith kept free w given (step >>= next) :=
  IgnoresWith.bind h fun a _ => h' a

theorem Ignores.bind {step : Run α} {next : α → Run β} (h : Ignores kept free w step)
    (h' : ∀ a, Ignores kept free w (next a)) : Ignores kept free w (step >>= next) :=
  IgnoresWith.bind h fun a _ => h' a

theorem Ignores.map {step : Run α} (h : Ignores kept free w step) (f : α → β) :
    Ignores kept free w (f <$> step) := by
  intro m m' hm
  obtain ⟨hsame, halike, hkeeps, -⟩ := h m m' hm
  rw [exec_map, exec_map, hsame]
  exact ⟨rfl, halike, hkeeps, fun _ _ => trivial⟩

theorem Ignores.tryCatch {step : Run α} {handle : Stop → Run α} (h : Ignores kept free w step)
    (h' : ∀ e, Ignores kept free w (handle e)) :
    Ignores kept free w (tryCatch step handle) := by
  intro m m' hm
  obtain ⟨hsame, halike, hkeeps, -⟩ := h m m' hm
  rw [exec_tryCatch, exec_tryCatch]
  rcases hr : exec step w m with ⟨e | a, m₁⟩ <;> rcases hr' : exec step w m' with ⟨e' | a', m₁'⟩ <;>
    rw [hr] at hsame halike hkeeps <;> rw [hr'] at hsame halike <;> cases hsame
  · obtain ⟨hsame', halike', hkeeps', -⟩ := h' e m₁ m₁' halike
    exact ⟨hsame', halike', hkeeps.trans hkeeps', fun _ _ => trivial⟩
  · exact ⟨rfl, halike, hkeeps, fun _ _ => trivial⟩

/-- An attempt gives the same value, since also a stop is the same. -/
theorem Ignores.attempt {step : Run α} (h : Ignores kept free w step) :
    Ignores kept free w (Adapter.attempt step) := by
  intro m m' hm
  obtain ⟨hsame, halike, hkeeps, -⟩ := h m m' hm
  rw [exec_attempt, exec_attempt, hsame]
  exact ⟨rfl, halike, hkeeps, fun _ _ => trivial⟩

theorem IgnoresWith.ite {given : α → Prop} {c : Prop} [Decidable c] {step step' : Run α}
    (h : IgnoresWith kept free w given step) (h' : IgnoresWith kept free w given step') :
    IgnoresWith kept free w given (if c then step else step') := by
  split_ifs
  · exact h
  · exact h'

theorem Ignores.ite {c : Prop} [Decidable c] {step step' : Run α} (h : Ignores kept free w step)
    (h' : Ignores kept free w step') : Ignores kept free w (if c then step else step') :=
  IgnoresWith.ite h h'

/-! ## Steps without files -/

theorem ignoresWith_pure {given : α → Prop} {a : α} (h : given a) :
    IgnoresWith kept free w given (pure a) :=
  fun m _ hm => ⟨rfl, hm, .refl kept m, fun b hb => by cases hb; exact h⟩

theorem ignores_pure (a : α) : Ignores kept free w (pure a) := ignoresWith_pure trivial

theorem ignores_throw (e : Stop) : Ignores kept free w (throw e : Run α) :=
  fun m _ hm => ⟨rfl, hm, .refl kept m, fun _ _ => trivial⟩

theorem ignores_fail (f : Failure) : Ignores kept free w (fail f : Run α) := ignores_throw _

theorem ignores_ofExcept (r : Except Stop α) : Ignores kept free w (ofExcept r) := by
  cases r with
  | ok a => exact ignores_pure a
  | error e => exact ignores_throw e

theorem ignores_read : Ignores kept free w (read : Run World) :=
  fun m _ hm => ⟨rfl, hm, .refl kept m, fun _ _ => trivial⟩

theorem ignoresWith_read : IgnoresWith kept free w (· = w) (read : Run World) :=
  fun m _ hm => ⟨rfl, hm, .refl kept m, fun _ h => by cases h; rfl⟩

theorem ignores_note (level : Level) (text : String) : Ignores kept free w (note level text) :=
  fun m _ hm => ⟨rfl, ⟨hm.files, hm.clock, hm.started, hm.cancelled, hm.catching, hm.temporaries⟩,
    ⟨.refl kept m.files, rfl⟩, fun _ _ => trivial⟩

theorem ignores_notes (level : Level) (text : β → String) (bs : List β) :
    Ignores kept free w (bs.forM fun b => note level (text b)) := by
  induction bs with
  | nil => exact ignores_pure ()
  | cons b bs ih => exact (ignores_note _ _).bind fun _ => ih

theorem ignores_place : Ignores kept free w place := ignores_read.bind fun _ => ignores_pure _

/-- A change of the machine that looks at what machines that are alike have in common. -/
theorem ignores_modify {f : Machine → Machine}
    (hkeeps : ∀ m, (f m).files = m.files ∧ (f m).printed = m.printed)
    (h : ∀ m m' : Machine, m.Alike free m' → (f m).Alike free (f m')) :
    Ignores kept free w (modify f : Run Unit) := by
  intro m m' hm
  refine ⟨rfl, h m m' hm, ?_, fun _ _ => trivial⟩
  have hexec : (exec (modify f : Run Unit) w m).2 = f m := rfl
  obtain ⟨hfiles, hprinted⟩ := hkeeps m
  rw [hexec]
  exact ⟨hfiles ▸ .refl kept _, hprinted⟩

/-- A look at the machine that sees only what machines that are alike have in common. -/
theorem ignoresWith_get_bind {given : α → Prop} {next : Machine → Run α}
    (hsame : ∀ m m' : Machine, m.Alike free m' → next m' = next m)
    (h : ∀ m, IgnoresWith kept free w given (next m)) :
    IgnoresWith kept free w given (get >>= next) := by
  intro m m' hm
  rw [exec_bind, exec_bind, exec_get, exec_get]
  dsimp only
  rw [hsame m m' hm]
  exact h m m m' hm

theorem ignores_get_bind {next : Machine → Run α}
    (hsame : ∀ m m' : Machine, m.Alike free m' → next m' = next m)
    (h : ∀ m, Ignores kept free w (next m)) : Ignores kept free w (get >>= next) :=
  ignoresWith_get_bind hsame h

theorem ignores_isCancelled : Ignores kept free w isCancelled := by
  refine ignores_get_bind (fun m m' hm => ?_) fun m => ignores_read.bind fun _ => ignores_pure _
  rw [hm.clock, hm.cancelled]

theorem Ignores.catching {step : Run α} (h : Ignores kept free w step) :
    Ignores kept free w (catching step) := by
  intro m m' hm
  have hstart : Machine.Alike free { m with catching := true, cancelled := false }
      { m' with catching := true, cancelled := false } :=
    ⟨hm.files, hm.clock, hm.started, rfl, rfl, hm.temporaries⟩
  obtain ⟨hsame, halike, hkeeps, -⟩ := h _ _ hstart
  rw [exec_catching, exec_catching]
  exact ⟨hsame, ⟨halike.files, halike.clock, halike.started, halike.cancelled, rfl,
    halike.temporaries⟩, ⟨hkeeps.files, hkeeps.printed⟩, fun _ _ => trivial⟩

end Run

/-! ## Commands -/

/-- A command that behaves so in a world writes its report to no place of a class. -/
def Behaviour.Spares (kept : Place → Prop) (w : World) (command : List String) (b : Behaviour) :
    Prop :=
  b.report ≠ .none → ∀ (fs : Files) q,
    fs.resolve w.place (command.getLast?.getD "") = .ok q → ¬ kept q

def Process.Spares (kept : Place → Prop) (w : World) (p : Process) : Prop :=
  p.behaviour.Spares kept w p.command

/-- Whatever was started before it, a command writes its report to no place of a class. -/
def World.Spares (w : World) (kept : Place → Prop) (command : List String) : Prop :=
  ∀ before b, w.respond before command = .runs b → b.Spares kept w command

namespace Run

variable {α : Type} {kept free : Place → Prop} {w : World} {p : Process}

theorem ignores_signal (s : Signal) : Ignores kept free w (signal s) := by
  refine ignores_modify (fun m => ?_) fun m m' hm => ?_
  · split <;> exact ⟨rfl, rfl⟩
  · rw [hm.started]
    split
    · exact hm
    · exact ⟨hm.files, hm.clock, rfl, hm.cancelled, hm.catching, hm.temporaries⟩

theorem ignores_interrupt : Ignores kept free w interrupt := by
  refine ignores_get_bind (fun m m' hm => ?_) fun m => ?_
  · rw [hm.catching, hm.cancelled]
  · split
    · refine (ignores_note _ _).bind fun _ => ignores_modify (fun _ => ⟨rfl, rfl⟩) fun m m' hm => ?_
      exact ⟨hm.files, hm.clock, hm.started, rfl, hm.catching, hm.temporaries⟩
    · exact ignores_throw _

/-- A report is written alike, since it is written to none of the places that may differ. -/
theorem ignores_leaveReport (hfree : ∀ q, free q → kept q) (hp : p.Spares kept w) :
    Ignores kept free w (leaveReport p) := by
  intro m m' hm
  obtain ⟨command, ⟨_, _, _, _, _, report, _⟩, _, _, _⟩ := p
  let path := command.getLast?.getD ""
  have hchange : ∀ gs gs' : Files, gs.Alike free gs' → m.files.Keeps kept gs →
      Machine.Alike free { m with files := gs } { m' with files := gs' } ∧
        m.Keeps kept { m with files := gs } ∧ ∀ a : Unit, Except.ok (ε := Stop) () = .ok a → True :=
    fun gs gs' halike hkeeps =>
      ⟨⟨halike, hm.clock, hm.started, hm.cancelled, hm.catching, hm.temporaries⟩,
        ⟨hkeeps, rfl⟩, fun _ _ => trivial⟩
  refine ⟨rfl, ?_⟩
  cases report with
  | none => exact hchange m.files m'.files hm.files (.refl kept _)
  | written content =>
    have hspares : ∀ q, m.files.resolve w.place path = .ok q → ¬ kept q := hp (by simp) m.files
    refine hchange ((m.files.write w.place path content).toOption.getD m.files)
      ((m'.files.write w.place path content).toOption.getD m'.files)
      hm.files.write_getD ?_
    cases hwrite : m.files.write w.place path content with
    | error e => exact .refl kept _
    | ok files => exact .of_write hwrite hspares
  | removed =>
    have hspares : ∀ q, m.files.resolve w.place path = .ok q → ¬ kept q := hp (by simp) m.files
    refine hchange ((m.files.remove w.place path).toOption.getD m.files)
      ((m'.files.remove w.place path).toOption.getD m'.files)
      (hm.files.remove_getD fun q hq hf => hspares q hq (hfree q hf)) ?_
    cases hremove : m.files.remove w.place path with
    | error e => exact .refl kept _
    | ok files => exact .of_remove hremove hspares

section Command

variable (hfree : ∀ q, free q → kept q)
include hfree

theorem ignoresWith_wait (hp : p.Spares kept w) (limit : Option Rat) :
    IgnoresWith kept free w (fun r => r.2.Spares kept w) (wait p limit) := by
  unfold wait
  refine ignoresWith_get_bind (fun m m' hm => ?_) fun m => ?_
  · simp only [hm.clock]
  extract_lets before advance
  have hadvance : ∀ q : Process, q.Spares kept w →
      IgnoresWith kept free w (fun r => r.2.Spares kept w) (advance q) := by
    intro q hq
    have hended : IgnoresWith kept free w (fun r => r.2.Spares kept w)
        (pure (Waited.ended, q) : Run (Waited × Process)) := ignoresWith_pure hq
    have hclock : ∀ t : Rat, Ignores kept free w
        (modify fun m => { m with clock := t } : Run Unit) := by
      refine fun t => ignores_modify (fun _ => ⟨rfl, rfl⟩) fun m m' hm => ?_
      exact ⟨hm.files, rfl, hm.started, hm.cancelled, hm.catching, hm.temporaries⟩
    refine .ite ?_ ?_
    · refine (hclock _).bind_with fun _ => ?_
      exact .ite ((ignores_leaveReport hfree hq).bind_with fun _ => hended) hended
    · exact (hclock _).bind_with fun _ => ignoresWith_pure hq
  refine .ite (hadvance p hp) ?_
  -- One interruption less is still to come, which changes nothing about the report.
  have hq : Process.Spares kept w { p with interruptions := p.interruptions - 1 } := hp
  have hinterrupt : Ignores kept free w
      (tryCatch (do interrupt; pure false) fun _ => pure true : Run Bool) :=
    (ignores_interrupt.bind fun _ => ignores_pure _).tryCatch fun _ => ignores_pure _
  exact hinterrupt.bind_with fun _ => .ite (ignoresWith_pure hq) (hadvance _ hq)

theorem ignoresWith_stop (hp : p.Spares kept w) :
    IgnoresWith kept free w (fun r => r.2.Spares kept w) (stop p) := by
  refine (ignores_signal _).bind_with fun _ => ?_
  refine ignoresWith_get_bind (fun m m' hm => ?_) fun m => ?_
  · simp only [hm.clock]
  extract_lets clock q
  have hq : q.Spares kept w := by
    dsimp only [q]
    split_ifs
    · exact hp
    · exact hp
  refine (ignoresWith_wait hfree hq _).bind fun r hr => ?_
  refine .ite ?_ (ignoresWith_pure hr)
  refine ignoresWith_get_bind (fun m m' hm => ?_) fun m => ?_
  · simp only [hm.started]
  refine (ignores_note _ _).bind_with fun _ => (ignores_signal _).bind_with fun _ => ?_
  refine ignoresWith_get_bind (fun m m' hm => ?_) fun m => ?_
  · simp only [hm.clock]
  have hkilled : Process.Spares kept w { r.2 with finish := m.clock, stopped := true } := hr
  exact ignoresWith_wait hfree hkilled none

theorem ignores_stopInterrupted (hp : p.Spares kept w) :
    Ignores kept free w (stopInterrupted p : Run α) :=
  (ignoresWith_stop hfree hp).ignores.bind fun _ => ignores_throw _

theorem ignores_giveUp (hp : p.Spares kept w) (f : ToolFailure) :
    Ignores kept free w (giveUp p f : Run α) := by
  refine (ignoresWith_stop hfree hp).bind_ignores fun r hr => ?_
  split
  · exact ignores_stopInterrupted hfree hr
  · exact ignores_throw _

theorem ignores_supervise (hp : p.Spares kept w) (n : Nat) (timeout : Binary64)
    (deadline : Option Rat) (watching : Bool) :
    Ignores kept free w (supervise n p timeout deadline watching) := by
  induction n generalizing p with
  | zero => exact ignores_giveUp hfree hp _
  | succ n ih =>
    rw [supervise]
    refine ignores_isCancelled.bind fun _ => ?_
    extract_lets afterCancelled
    have hafter : ∀ u, Ignores kept free w (afterCancelled u) := by
      intro u
      refine ignores_get_bind (fun m m' hm => ?_) fun m => ?_
      · simp only [hm.clock]
      extract_lets remaining limit onTime
      have honTime : ∀ u, Ignores kept free w (onTime u) := by
        intro u
        refine (ignoresWith_wait hfree hp _).bind_ignores fun r hr => ?_
        split
        · exact ignores_pure _
        · exact ih hr
        · exact ignores_stopInterrupted hfree hr
      exact .ite ((ignores_giveUp hfree hp _).bind honTime) (honTime ())
    exact .ite ((ignores_giveUp hfree hp _).bind hafter) (hafter ())

/-- A command keeps what stands at the places that it writes no report to, and it does not look at
files. -/
theorem ignores_command {argv : List String} (hw : w.Spares kept argv) (timeout : Binary64)
    (watching : Bool) (environment : Option (List (String × String))) (combined : Bool) :
    Ignores kept free w (command argv timeout watching environment combined) := by
  refine (ignores_note _ _).bind fun _ => ?_
  refine ignores_get_bind (fun m m' hm => ?_) fun m => ?_
  · simp only [hm.started]
  extract_lets before
  refine Ignores.bind ?_ fun _ => ?_
  · refine ignores_modify (fun _ => ⟨rfl, rfl⟩) fun m m' hm => ?_
    exact ⟨hm.files, hm.clock, congrArg (⟨argv, [], environment⟩ :: ·) hm.started, hm.cancelled,
      hm.catching, hm.temporaries⟩
  refine ignoresWith_read.bind_ignores fun w' hw' => ?_
  subst hw'
  split
  next => exact ignores_fail _
  next b hb =>
    have hspares : ∀ finish interruptions,
        Process.Spares kept w' ⟨argv, b, finish, interruptions, false⟩ :=
      fun _ _ => hw before b hb
    refine ignores_get_bind (fun m m' hm => ?_) fun m => ?_
    · simp only [hm.clock]
    extract_lets clock finish deadline last output succeeded
    have hsucceeded : ∀ u, Ignores kept free w' (succeeded u) :=
      fun _ => (ignores_note _ _).bind fun _ => ignores_pure _
    refine (ignores_supervise hfree (hspares _ _) _ _ _ _).bind fun _ => ?_
    exact .ite ((ignores_fail _).bind hsucceeded) (hsucceeded ())

end Command

end Run
end ContainerDocs
