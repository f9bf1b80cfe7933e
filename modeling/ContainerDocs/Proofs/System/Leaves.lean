import ContainerDocs.Proofs.System.Command

/-!
# What commands leave behind

However a command ends, be it by itself, by force or by an interruption of the run, it has left its
report or it has left the files as they were. A command that gives its output has left its report.

## Main definitions

* `Run.Leaves` — which files a step leaves, when it gives something and when it stops.

## Main statements

* `Run.Leaves.bind`, `Run.Leaves.attempt` — what steps in a row leave.
* `Run.leaves_supervise`, `Run.leaves_command` — what a command leaves.
-/

namespace ContainerDocs

namespace Run

variable {α β : Type} {w : World} {fs : Files} {before : Files → Prop}
  {given : α → Files → Prop} {given' : β → Files → Prop} {stopped stopped' : Files → Prop}

/-- In a world, a step that starts with files of a kind leaves files of another kind, which may
depend on what it gives, and files of a third kind when it stops. -/
def Leaves (w : World) (before : Files → Prop) (given : α → Files → Prop) (stopped : Files → Prop)
    (step : Run α) : Prop :=
  ∀ m : Machine, before m.files →
    (∀ a, (exec step w m).1 = .ok a → given a (exec step w m).2.files) ∧
      ∀ e, (exec step w m).1 = .error e → stopped (exec step w m).2.files

/-! ## Steps in a row -/

section Steps

variable {step : Run α}

theorem Leaves.bind {next : α → Run β} (h : Leaves w before given stopped step)
    (h' : ∀ a, Leaves w (given a) given' stopped (next a)) :
    Leaves w before given' stopped (step >>= next) := by
  intro m hm
  obtain ⟨hgiven, hstopped⟩ := h m hm
  rw [exec_bind]
  rcases hexec : exec step w m with ⟨e | a, m₁⟩ <;> rw [hexec] at hgiven hstopped
  · exact ⟨by rintro _ ⟨⟩, fun _ _ => hstopped e rfl⟩
  · exact h' a m₁ (hgiven a rfl)

theorem Leaves.mono {given' : α → Files → Prop} (h : Leaves w before given stopped step)
    (hgiven : ∀ a gs, given a gs → given' a gs) (hstopped : ∀ gs, stopped gs → stopped' gs) :
    Leaves w before given' stopped' step := by
  intro m hm
  obtain ⟨hg, hs⟩ := h m hm
  exact ⟨fun a ha => hgiven a _ (hg a ha), fun e he => hstopped _ (hs e he)⟩

/-- What a step leaves can be said for each of the files that it starts with. -/
theorem Leaves.of_each (h : ∀ gs, before gs → Leaves w (· = gs) given stopped step) :
    Leaves w before given stopped step :=
  fun m hm => h m.files hm m rfl

/-- What a step leaves whether it stops or not. -/
theorem Leaves.files {after : Files → Prop} {m : Machine} (h : Leaves w before given stopped step)
    (hm : before m.files) (hgiven : ∀ a gs, given a gs → after gs)
    (hstopped : ∀ gs, stopped gs → after gs) : after (exec step w m).2.files := by
  obtain ⟨hg, hs⟩ := h m hm
  cases hresult : (exec step w m).1 with
  | ok a => exact hgiven a _ (hg a hresult)
  | error e => exact hstopped _ (hs e hresult)

/-- An attempt does not stop. -/
theorem Leaves.attempt (h : Leaves w before given stopped step) :
    Leaves w before
      (fun r gs => (∀ a, r = .ok a → given a gs) ∧ ∀ e, r = .error e → stopped gs) stopped'
      (Adapter.attempt step) := by
  intro m hm
  rw [exec_attempt]
  exact ⟨by rintro _ ⟨⟩; exact h m hm, by rintro _ ⟨⟩⟩

theorem Leaves.tryCatch {handle : Stop → Run α} (h : Leaves w before given stopped step)
    (h' : ∀ e, Leaves w stopped given stopped' (handle e)) :
    Leaves w before given stopped' (tryCatch step handle) := by
  intro m hm
  obtain ⟨hgiven, hstopped⟩ := h m hm
  rw [exec_tryCatch]
  rcases hexec : exec step w m with ⟨e | a, m₁⟩ <;> rw [hexec] at hgiven hstopped
  · exact h' e m₁ (hstopped e rfl)
  · exact ⟨by rintro _ ⟨⟩; exact hgiven a rfl, by rintro _ ⟨⟩⟩

theorem Leaves.ite {c : Prop} [Decidable c] {step' : Run α} (h : Leaves w before given stopped step)
    (h' : Leaves w before given stopped step') :
    Leaves w before given stopped (if c then step else step') := by
  split_ifs
  · exact h
  · exact h'

theorem leaves_pure {a : α} (h : ∀ gs, before gs → given a gs) :
    Leaves w before given stopped (pure a) :=
  fun _ hm => ⟨by rintro _ ⟨⟩; exact h _ hm, by rintro _ ⟨⟩⟩

theorem leaves_throw {e : Stop} (h : ∀ gs, before gs → stopped gs) :
    Leaves w before given stopped (throw e : Run α) :=
  fun _ hm => ⟨by rintro _ ⟨⟩, by rintro _ ⟨⟩; exact h _ hm⟩

theorem Leaves.map (h : Leaves w before (fun _ => before) stopped step) (f : α → β) :
    Leaves w before (fun _ => before) stopped (f <$> step) := by
  rw [map_eq_pure_bind]
  exact h.bind fun _ => leaves_pure fun _ hgs => hgs

theorem leaves_ofExcept (r : Except Stop α) (h : ∀ gs, before gs → stopped gs) :
    Leaves w before (fun a gs => r = .ok a ∧ before gs) stopped (ofExcept r) := by
  intro m hm
  rw [exec_ofExcept]
  exact ⟨fun _ ha => ⟨ha, hm⟩, fun _ _ => h _ hm⟩

/-- A step that always gives something and changes nothing. -/
theorem leaves_of_exec (h : ∀ m, ∃ a, exec step w m = (.ok a, m)) :
    Leaves w before (fun _ => before) stopped step := by
  intro m hm
  obtain ⟨a, hexec⟩ := h m
  rw [hexec]
  exact ⟨fun _ _ => hm, by rintro _ ⟨⟩⟩

theorem leaves_read : Leaves w before (fun _ => before) stopped (read : Run World) :=
  leaves_of_exec fun m => ⟨w, exec_read w m⟩

theorem leaves_get : Leaves w before (fun m gs => m.files = gs ∧ before gs) stopped
    (get : Run Machine) :=
  fun _ hm => ⟨by rintro _ ⟨⟩; exact ⟨rfl, hm⟩, by rintro _ ⟨⟩⟩

/-- A change of the machine that leaves the files. -/
theorem leaves_modify {f : Machine → Machine} (h : ∀ m, (f m).files = m.files) :
    Leaves w before (fun _ => before) stopped (modify f : Run Unit) := by
  intro m hm
  have hexec : exec (modify f : Run Unit) w m = (.ok (), f m) := rfl
  rw [hexec]
  exact ⟨fun _ _ => (h m).symm ▸ hm, by rintro _ ⟨⟩⟩

theorem leaves_note (level : Level) (text : String) :
    Leaves w before (fun _ => before) stopped (note level text) :=
  leaves_modify fun _ => rfl

theorem leaves_isCancelled : Leaves w before (fun _ => before) stopped isCancelled :=
  leaves_of_exec fun m => (exec_isCancelled w m).imp fun _ h => h.1

theorem leaves_interrupt : Leaves w (· = fs) (fun _ => (· = fs)) (· = fs) interrupt := by
  refine leaves_get.bind fun m => Leaves.of_each fun gs hgs => ?_
  obtain rfl : gs = fs := hgs.2
  have hcancel : Leaves w (· = gs) (fun _ => (· = gs)) (· = gs)
      (modify fun m => { m with cancelled := true } : Run Unit) := leaves_modify fun _ => rfl
  exact .ite ((leaves_note _ _).bind fun _ => hcancel) (leaves_throw fun _ hgs => hgs)

end Steps

/-! ## Waiting for a command -/

/-- Two processes that run the same command and behave alike. -/
structure Same (p q : Process) : Prop where
  command : q.command = p.command
  behaviour : q.behaviour = p.behaviour

theorem Same.trans {p q r : Process} (h : Same p q) (h' : Same q r) : Same p r :=
  ⟨h'.command.trans h.command, h'.behaviour.trans h.behaviour⟩

theorem Same.leave_eq {p q : Process} (h : Same p q) : q.leave w fs = p.leave w fs := by
  rw [Process.leave, Process.leave, h.command, h.behaviour]

theorem Same.mayLeave {p q : Process} (h : Same p q) {gs : Files} (hq : q.MayLeave w fs gs) :
    p.MayLeave w fs gs := by
  rwa [Process.MayLeave, ← h.leave_eq]

/-- What is known after a wait for a process: it is the same process, and it has left its report if
the wait saw it end by itself. -/
structure SawEnd (w : World) (fs : Files) (p : Process) (r : Waited × Process) (gs : Files) :
    Prop where
  same : Same p r.2
  stopped : r.2.stopped = p.stopped
  files : gs = if r.1 = .ended ∧ p.stopped = false then p.leave w fs else fs

theorem SawEnd.eq_of_ne {p : Process} {r : Waited × Process} {gs : Files}
    (h : SawEnd w fs p r gs) (hne : r.1 ≠ .ended) : gs = fs := by
  rw [h.files, if_neg fun hended => hne hended.1]

theorem SawEnd.mayLeave {p : Process} {r : Waited × Process} {gs : Files}
    (h : SawEnd w fs p r gs) : p.MayLeave w fs gs := by
  rw [h.files]
  split_ifs
  · exact .inr rfl
  · exact .inl rfl

theorem leaves_leaveReport (p : Process) :
    Leaves w (· = fs) (fun _ gs => gs = p.leave w fs) stopped (leaveReport p) := by
  rintro m rfl
  rw [exec_leaveReport]
  exact ⟨fun _ _ => rfl, by rintro _ ⟨⟩⟩

theorem leaves_wait (p : Process) (limit : Option Rat) :
    Leaves w (· = fs) (SawEnd w fs p) (· = fs) (wait p limit) := by
  refine leaves_get.bind fun m => ?_
  extract_lets before advance
  refine Leaves.of_each fun gs hgs => ?_
  obtain rfl : gs = fs := hgs.2
  have hclock : ∀ t : Rat, Leaves w (· = gs) (fun _ => (· = gs)) (· = gs)
      (modify fun m => { m with clock := t } : Run Unit) := fun _ => leaves_modify fun _ => rfl
  -- A process with fewer interruptions to come leaves the same.
  have hadvance : ∀ k, Leaves w (· = gs) (SawEnd w gs p) (· = gs)
      (advance { p with interruptions := k }) := by
    intro k
    refine .ite ((hclock _).bind fun _ => ?_) ((hclock _).bind fun _ => leaves_pure ?_)
    · cases hstopped : p.stopped with
      | true =>
        refine leaves_pure ?_
        rintro _ rfl
        exact ⟨⟨rfl, rfl⟩, hstopped.symm, (if_neg (by simp [hstopped])).symm⟩
      | false =>
        refine (leaves_leaveReport _).bind fun _ => leaves_pure ?_
        rintro _ rfl
        exact ⟨⟨rfl, rfl⟩, hstopped.symm, (if_pos ⟨rfl, hstopped⟩).symm⟩
    · rintro _ rfl
      exact ⟨⟨rfl, rfl⟩, rfl, (if_neg (by simp)).symm⟩
  have hpure : ∀ c : Bool, Leaves w (· = gs) (fun _ => (· = gs)) (· = gs) (pure c : Run Bool) :=
    fun _ => leaves_pure fun _ h => h
  have hinterrupt : Leaves w (· = gs) (fun _ => (· = gs)) (· = gs)
      (tryCatch (do interrupt; pure false) fun _ => pure true : Run Bool) :=
    (leaves_interrupt.bind fun _ => hpure false).tryCatch fun _ => hpure true
  refine .ite (hadvance p.interruptions) (hinterrupt.bind fun stopsRun => .ite ?_ (hadvance _))
  refine leaves_pure ?_
  rintro _ rfl
  exact ⟨⟨rfl, rfl⟩, rfl, (if_neg (by simp)).symm⟩

/-! ## Ending a command -/

/-- What is known after a process was made to end: it is the same process, it has left its report or
the files as they were, and the latter if no wait saw it end. -/
structure MadeEnd (w : World) (fs : Files) (p : Process) (r : Waited × Process) (gs : Files) :
    Prop where
  same : Same p r.2
  mayLeave : p.MayLeave w fs gs
  eq_of_ne : r.1 ≠ .ended → gs = fs

theorem SawEnd.madeEnd {p q : Process} {r : Waited × Process} {gs : Files}
    (h : SawEnd w fs q r gs) (hsame : Same p q) : MadeEnd w fs p r gs :=
  ⟨hsame.trans h.same, hsame.mayLeave h.mayLeave, h.eq_of_ne⟩

theorem leaves_signal (s : Signal) : Leaves w before (fun _ => before) stopped (signal s) := by
  refine leaves_modify fun m => ?_
  split <;> rfl

theorem leaves_stop (p : Process) : Leaves w (· = fs) (MadeEnd w fs p) (· = fs) (stop p) := by
  refine (leaves_signal _).bind fun _ => leaves_get.bind fun m => ?_
  extract_lets clock q
  have hsame : Same p q := by
    dsimp only [q]
    split_ifs <;> exact ⟨rfl, rfl⟩
  refine Leaves.of_each fun gs hgs => ?_
  obtain rfl : gs = fs := hgs.2
  refine (leaves_wait q (some gracePeriod)).bind fun r => ?_
  obtain ⟨result, q'⟩ := r
  dsimp only
  split_ifs with hrunning
  · -- A process that is killed leaves nothing.
    refine Leaves.of_each fun hs hwait => ?_
    have hmade := hwait.madeEnd hsame
    obtain rfl : hs = gs := hmade.eq_of_ne (by simp [hrunning])
    refine leaves_get.bind fun m => (leaves_note _ _).bind fun _ => ?_
    refine (leaves_signal _).bind fun _ => ?_
    refine leaves_get.bind fun m => Leaves.of_each fun gs hgs => ?_
    obtain rfl : gs = hs := hgs.2.2
    refine (leaves_wait _ none).mono (fun r _ h => ?_) fun _ h => h
    exact h.madeEnd ⟨hmade.same.command, hmade.same.behaviour⟩
  · exact leaves_pure fun _ h => h.madeEnd hsame

theorem leaves_stopInterrupted (p : Process) :
    Leaves w (· = fs) given (p.MayLeave w fs) (stopInterrupted p : Run α) :=
  ((leaves_stop p).mono (fun _ _ h => h) fun _ h => .inl h).bind fun _ =>
    leaves_throw fun _ h => h.mayLeave

/-- A process that is given up leaves its report or the files as they were. -/
theorem leaves_giveUp (p : Process) (f : ToolFailure) :
    Leaves w (· = fs) given (p.MayLeave w fs) (giveUp p f : Run α) := by
  refine ((leaves_stop p).mono (fun _ _ h => h) fun _ h => .inl h).bind fun r => ?_
  obtain ⟨result, q⟩ := r
  cases result with
  | interrupted =>
    refine Leaves.of_each fun gs hgs => ?_
    obtain rfl : gs = fs := hgs.eq_of_ne (by simp)
    exact (leaves_stopInterrupted q).mono (fun _ _ h => h) fun _ => hgs.same.mayLeave
  | ended => exact leaves_throw fun _ h => h.mayLeave
  | running => exact leaves_throw fun _ h => h.mayLeave

/-- A process whose wait comes to an end has left its report. -/
theorem leaves_supervise (n : Nat) {p : Process} (hp : p.stopped = false) (timeout : Binary64)
    (deadline : Option Rat) (watching : Bool) :
    Leaves w (· = fs) (fun _ gs => gs = p.leave w fs) (p.MayLeave w fs)
      (supervise n p timeout deadline watching) := by
  induction n generalizing p with
  | zero => exact leaves_giveUp _ _
  | succ n ih =>
    rw [supervise]
    refine leaves_isCancelled.bind fun _ => ?_
    extract_lets afterCancelled
    have hafter : ∀ u, Leaves w (· = fs) (fun _ gs => gs = p.leave w fs) (p.MayLeave w fs)
        (afterCancelled u) := by
      intro u
      refine leaves_get.bind fun m => Leaves.of_each fun gs hgs => ?_
      obtain rfl : gs = fs := hgs.2
      extract_lets remaining limit onTime
      have honTime : ∀ u, Leaves w (· = gs) (fun _ hs => hs = p.leave w gs) (p.MayLeave w gs)
          (onTime u) := by
        intro u
        refine ((leaves_wait p limit).mono (fun _ _ h => h) fun _ h => .inl h).bind
          fun r => Leaves.of_each fun hs hwait => ?_
        obtain ⟨result, q⟩ := r
        cases result with
        | ended =>
          refine leaves_pure ?_
          rintro _ rfl
          exact hwait.files.trans (if_pos ⟨rfl, hp⟩)
        | running =>
          obtain rfl : hs = gs := hwait.eq_of_ne (by simp)
          exact (ih (hwait.stopped.trans hp)).mono (fun _ _ h => h.trans hwait.same.leave_eq)
            fun _ => hwait.same.mayLeave
        | interrupted =>
          obtain rfl : hs = gs := hwait.eq_of_ne (by simp)
          exact (leaves_stopInterrupted q).mono (fun _ _ h => h) fun _ => hwait.same.mayLeave
      exact .ite ((leaves_giveUp p _).bind honTime) (honTime ())
    exact .ite ((leaves_giveUp p _).bind hafter) (hafter ())

/-! ## Commands -/

/-- A command that gives its output has ended by itself and left its report. One that does not has
left its report or the files as they were. -/
theorem leaves_command (argv : List String) (timeout : Binary64) (watching : Bool)
    (environment : Option (List (String × String))) (combined : Bool) :
    Leaves w (· = fs)
      (fun output gs => ∃ before b, w.respond before argv = .runs b ∧
        b.result argv combined = .ok output ∧ gs = b.leave argv w fs)
      (fun gs => gs = fs ∨ ∃ before b, w.respond before argv = .runs b ∧ gs = b.leave argv w fs)
      (command argv timeout watching environment combined) := by
  rintro m rfl
  cases hrespond : w.respond (m.started.map (·.command)) argv with
  | fails e =>
    rw [exec_command_of_fails hrespond]
    exact ⟨by rintro _ ⟨⟩, fun _ _ => .inl rfl⟩
  | runs b =>
    obtain ⟨n, own, -, hown, hexec⟩ :=
      exec_command_of_runs timeout watching environment combined hrespond
    rw [hexec]
    have hresult : ∀ u, Leaves w (· = b.leave argv w m.files)
        (fun output gs => ∃ before b, w.respond before argv = .runs b ∧
          b.result argv combined = .ok output ∧ gs = b.leave argv w m.files)
        (fun gs => gs = m.files ∨
          ∃ before b, w.respond before argv = .runs b ∧ gs = b.leave argv w m.files) (own u) := by
      intro u m₁ hm₁
      obtain ⟨notes, hnotes⟩ := hown w m₁
      rw [hnotes]
      exact ⟨fun output houtput => ⟨_, b, hrespond, houtput, hm₁⟩,
        fun _ _ => .inr ⟨_, b, hrespond, hm₁⟩⟩
    have hsupervise : Leaves w (· = m.files) (fun _ gs => gs = b.leave argv w m.files)
        ((process argv b m).MayLeave w m.files) (supervise (n + 1) (process argv b m) timeout
          (deadline? m.clock timeout) watching) := leaves_supervise _ rfl _ _ _
    refine ((hsupervise.mono (fun _ _ h => h) fun _ h => ?_).bind hresult)
      (launched argv environment m) rfl
    exact h.imp_right fun h => ⟨_, b, hrespond, h⟩

end Run
end ContainerDocs
