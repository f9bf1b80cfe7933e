import ContainerDocs.Proofs.System.Command
import ContainerDocs.Proofs.System.Started

/-!
# Worlds without interruptions

In a quiet world no wait is interrupted and no cancellation is asked for. How a command behaves may
depend on everything that was started before, but it ends, and a step that runs commands stops only
for reasons of its own. In a steady world it depends on the command only. There, what a run of a
command gives does not depend on the machine at all, and in particular not on the time. A command
that no cancellation is looked for needs no more than that its own waits are not interrupted.

## Main definitions

* `World.IsQuiet` — a world in which nothing is interrupted or cancelled.
* `World.IsSteady` — a quiet world in which commands behave alike every time.
* `World.outcome` — what a command gives, its output or the reason why there is none.
* `Behaviour.InTime` — a command ends within its time.
* `Run.Undisturbed` — what a step gives in a quiet world, and why it stops.

## Main statements

* `Run.Undisturbed.bind` — what steps in a row give.
* `Run.undisturbed_command` — a command gives its output or fails.
* `Run.exists_exec_command_of_inTime` — a command that succeeds in time gives its output.
* `Run.exists_runs_of_command` — what a command gives is its output.
* `Run.exec_command_steady` — what a command gives and leaves in a steady world.
* `Run.exec_command_unwatched` — a command that no cancellation is looked for gives its outcome.
-/

namespace ContainerDocs

/-- No wait for a command is interrupted, and no cancellation is asked for. -/
structure World.IsQuiet (w : World) : Prop where
  interruptions : ∀ before argv b, w.respond before argv = .runs b → b.interruptions = 0
  cancelAt : w.cancelAt = none

def Behaviour.InTime (b : Behaviour) (timeout : Binary64) : Prop :=
  ∀ t ∈ deadline? 0 timeout, b.duration ≤ t ∧ 0 < t

/-- A time limit lasts equally long whenever it starts. -/
theorem deadline?_eq (clock : Rat) (timeout : Binary64) :
    deadline? clock timeout = (deadline? 0 timeout).map (clock + ·) := by
  unfold deadline?
  split
  · rw [Option.map_some, add_zero]
  · rw [Option.map_map]
    congr 1
    funext t
    rw [Function.comp_apply, zero_add]

/-- A failure of a command that could not be started, or that has ended. -/
inductive ToolFailure.IsEnd (argv : List String) (timeout : Binary64) : ToolFailure → Prop where
  | failed (status : Int) (text : String) : IsEnd argv timeout (.failed argv status text)
  | timedOut : IsEnd argv timeout (.timedOut argv timeout)

namespace Run

variable {α β : Type} {w : World} {m : Machine} {argv : List String} {timeout : Binary64}
  {watching combined : Bool} {b : Behaviour}

/-! ## Endings of commands -/

theorem not_cancelledBy (hw : w.IsQuiet) (hm : m.cancelled = false) (t : Rat) :
    ¬w.CancelledBy m t := by
  rintro (h | ⟨s, hs, -⟩)
  · rw [hm] at h
    cases h
  · rw [hw.cancelAt] at hs
    cases hs

/-- A command that is not cancelled ends by itself if it does so within its time, and its time is
over if not. -/
theorem eq_of_fits {e : Ending} {signals : List Signal} {now : Rat}
    (huncancelled : watching = true → ∀ t, ¬w.CancelledBy m t)
    (h : e.Fits w m (m.clock + b.duration) (deadline? m.clock timeout) watching signals now) :
    (b.InTime timeout → e = .byItself) ∧ (¬b.InTime timeout → e = .timedOut) := by
  rw [deadline?_eq] at h
  cases e with
  | byItself =>
    refine ⟨fun _ => rfl, fun hlate => absurd (fun t ht => ?_) hlate⟩
    obtain ⟨hfinish, hearly⟩ := h.2 (m.clock + t) (Option.mem_map_of_mem _ ht)
    exact ⟨le_of_add_le_add_left hfinish, pos_of_lt_add_right hearly⟩
  | timedOut =>
    refine ⟨fun hinTime => ?_, fun _ => rfl⟩
    obtain ⟨-, d, hd, -, hlate⟩ := h
    obtain ⟨t, ht, rfl⟩ := Option.mem_map.1 hd
    obtain ⟨hduration, hpos⟩ := hinTime t ht
    obtain hlate | hlate := hlate <;> linarith
  | cancelled =>
    obtain ⟨-, hwatching, t, -, -, -, hasked⟩ := h
    exact absurd hasked (huncancelled hwatching t)

theorem result_isEnd {e : Stop} (h : b.result argv combined = .error e) :
    ∃ f, e = .failure (.tool f) ∧ f.IsEnd argv timeout := by
  rw [Behaviour.result] at h
  by_cases hstatus : b.status = 0
  · rw [if_pos hstatus] at h
    cases h
  · rw [if_neg hstatus] at h
    cases h
    exact ⟨_, rfl, .failed ..⟩

/-- In a quiet world a command that can be started gives what is made of it when it ends, and no
cancellation is asked for. -/
theorem exists_exec_command (hw : w.IsQuiet) (hm : m.cancelled = false) (timeout : Binary64)
    (watching : Bool) (environment : Option (List (String × String))) (combined : Bool)
    (hb : w.respond (m.started.map (·.command)) argv = .runs b) :
    ∃ (e : Ending) (m' : Machine),
      exec (command argv timeout watching environment combined) w m =
        (e.result (b.result argv combined) argv timeout, m') ∧ m'.cancelled = false ∧
      (b.InTime timeout → e = .byItself) ∧ (¬b.InTime timeout → e = .timedOut) := by
  obtain ⟨e, signals, m', hexec, hsupervised, -⟩ :=
    exec_command timeout watching environment combined hb (hw.interruptions _ argv b hb)
  have hstart : (launched argv environment m).cancelled = false := hm
  exact ⟨e, m', hexec, hsupervised.frame.cancelled.trans hstart,
    eq_of_fits (fun _ => not_cancelledBy hw hstart) hsupervised.fits⟩

/-- A command that succeeds within its time gives its output. -/
theorem exists_exec_command_of_inTime (hw : w.IsQuiet) (hm : m.cancelled = false)
    (watching : Bool) (environment : Option (List (String × String))) (combined : Bool)
    (hb : w.respond (m.started.map (·.command)) argv = .runs b) (hstatus : b.status = 0)
    (hinTime : b.InTime timeout) :
    ∃ m', exec (command argv timeout watching environment combined) w m =
        (.ok (if combined then b.output ++ b.errors else b.output), m') ∧
      m'.cancelled = false := by
  obtain ⟨e, m', hexec, hcancelled, hself, -⟩ :=
    exists_exec_command hw hm timeout watching environment combined hb
  obtain rfl := hself hinTime
  rw [Ending.result, Behaviour.result, if_pos hstatus] at hexec
  exact ⟨m', hexec, hcancelled⟩

/-- A command gives what it leaves when it ends by itself, or nothing. -/
theorem exists_runs_of_command {output : Bytes} {m' : Machine}
    {environment : Option (List (String × String))} (hw : w.IsQuiet)
    (h : exec (command argv timeout watching environment combined) w m = (.ok output, m')) :
    ∃ b, w.respond (m.started.map (·.command)) argv = .runs b ∧
      b.result argv combined = .ok output := by
  cases hrespond : w.respond (m.started.map (·.command)) argv with
  | fails e =>
    rw [exec_command_of_fails hrespond] at h
    cases h
  | runs b =>
    obtain ⟨e, signals, m₁, hexec, -⟩ :=
      exec_command timeout watching environment combined hrespond
        (hw.interruptions _ argv b hrespond)
    rw [hexec] at h
    cases e with
    | byItself => exact ⟨b, rfl, congrArg Prod.fst h⟩
    | _ => cases h

/-! ## Undisturbed steps -/

/-- In a world, a step that starts without a cancellation leaves none. What it gives has a property
if it is a value, and another one if it is a stop. -/
def Undisturbed (w : World) (stops : Stop → Prop) (given : α → Prop) (step : Run α) : Prop :=
  ∀ m : Machine, m.cancelled = false → (exec step w m).2.cancelled = false ∧
    (∀ a, (exec step w m).1 = .ok a → given a) ∧ ∀ e, (exec step w m).1 = .error e → stops e

section Undisturbed

variable {stops stops' : Stop → Prop} {given : α → Prop} {given' : β → Prop} {step : Run α}

theorem Undisturbed.bind {next : α → Run β} (h : Undisturbed w stops given step)
    (h' : ∀ a, given a → Undisturbed w stops given' (next a)) :
    Undisturbed w stops given' (step >>= next) := by
  intro m hm
  obtain ⟨hcancelled, hgiven, hstops⟩ := h m hm
  rw [exec_bind]
  rcases hexec : exec step w m with ⟨e | a, m₁⟩ <;> rw [hexec] at hcancelled hgiven hstops
  · exact ⟨hcancelled, by rintro _ ⟨⟩, by rintro _ ⟨⟩; exact hstops e rfl⟩
  · exact h' a (hgiven a rfl) m₁ hcancelled

theorem Undisturbed.mono {given' : α → Prop} (h : Undisturbed w stops given step)
    (hgiven : ∀ a, given a → given' a) (hstops : ∀ e, stops e → stops' e) :
    Undisturbed w stops' given' step := by
  intro m hm
  obtain ⟨hcancelled, hg, hs⟩ := h m hm
  exact ⟨hcancelled, fun a ha => hgiven a (hg a ha), fun e he => hstops e (hs e he)⟩

/-- A step that never stops gives a value. -/
theorem Undisturbed.exists_exec (h : Undisturbed w (fun _ => False) given step)
    (hm : m.cancelled = false) :
    ∃ a m', exec step w m = (.ok a, m') ∧ m'.cancelled = false ∧ given a := by
  obtain ⟨hcancelled, hgiven, hstops⟩ := h m hm
  rcases hexec : exec step w m with ⟨e | a, m'⟩ <;> rw [hexec] at hcancelled hgiven hstops
  · exact (hstops e rfl).elim
  · exact ⟨a, m', rfl, hcancelled, hgiven a rfl⟩

/-- An attempt does not stop. -/
theorem Undisturbed.attempt (h : Undisturbed w stops given step) :
    Undisturbed w stops'
      (fun r => (∀ a, r = .ok a → given a) ∧ ∀ e, r = .error e → stops e)
      (Adapter.attempt step) := by
  intro m hm
  obtain ⟨hcancelled, hg, hs⟩ := h m hm
  rw [exec_attempt]
  exact ⟨hcancelled, by rintro _ ⟨⟩; exact ⟨hg, hs⟩, by rintro _ ⟨⟩⟩

theorem Undisturbed.tryCatch {handle : Stop → Run α} (h : Undisturbed w stops given step)
    (h' : ∀ e, stops e → Undisturbed w stops' given (handle e)) :
    Undisturbed w stops' given (tryCatch step handle) := by
  intro m hm
  obtain ⟨hcancelled, hg, hs⟩ := h m hm
  rw [exec_tryCatch]
  rcases hexec : exec step w m with ⟨e | a, m₁⟩ <;> rw [hexec] at hcancelled hg hs
  · exact h' e (hs e rfl) m₁ hcancelled
  · exact ⟨hcancelled, hg, by rintro _ ⟨⟩⟩

theorem Undisturbed.ite {c : Prop} [Decidable c] {step' : Run α}
    (h : Undisturbed w stops given step) (h' : Undisturbed w stops given step') :
    Undisturbed w stops given (if c then step else step') := by
  split_ifs
  · exact h
  · exact h'

/-- A step that always gives something and asks for no cancellation. -/
theorem undisturbed_of_exec {value : Machine → α} {after : Machine → Machine}
    (hexec : ∀ m, exec step w m = (.ok (value m), after m))
    (hcancelled : ∀ m, (after m).cancelled = m.cancelled) (hgiven : ∀ m, given (value m)) :
    Undisturbed w stops given step := by
  intro m hm
  rw [hexec]
  exact ⟨(hcancelled m).trans hm, by rintro _ ⟨⟩; exact hgiven m, by rintro _ ⟨⟩⟩

theorem undisturbed_pure {a : α} (h : given a) : Undisturbed w stops given (pure a) :=
  fun m hm => ⟨hm, by rintro _ ⟨⟩; exact h, by rintro _ ⟨⟩⟩

theorem Undisturbed.map (h : Undisturbed w stops given step) (f : α → β) :
    Undisturbed w stops (fun _ => True) (f <$> step) := by
  rw [map_eq_pure_bind]
  exact h.bind fun _ _ => undisturbed_pure trivial

theorem undisturbed_ofExcept {r : Except Stop α} (hgiven : ∀ a, r = .ok a → given a)
    (hstops : ∀ e, r = .error e → stops e) : Undisturbed w stops given (ofExcept r) := by
  intro m hm
  rw [exec_ofExcept]
  exact ⟨hm, hgiven, hstops⟩

theorem undisturbed_throw {e : Stop} (h : stops e) :
    Undisturbed w stops given (throw e : Run α) :=
  fun _ hm => ⟨hm, by rintro _ ⟨⟩, by rintro _ ⟨⟩; exact h⟩

theorem undisturbed_read : Undisturbed w stops (· = w) (read : Run World) :=
  undisturbed_of_exec (exec_read w) (fun _ => rfl) fun _ => rfl

theorem undisturbed_get : Undisturbed w stops (fun _ => True) (get : Run Machine) :=
  undisturbed_of_exec (exec_get w) (fun _ => rfl) fun _ => trivial

theorem undisturbed_modify {f : Machine → Machine} (h : ∀ m, (f m).cancelled = m.cancelled) :
    Undisturbed w stops (fun _ => True) (modify f : Run Unit) :=
  undisturbed_of_exec (fun _ => rfl) h fun _ => trivial

theorem undisturbed_note (level : Level) (text : String) :
    Undisturbed w stops (fun _ => True) (note level text) :=
  undisturbed_modify fun _ => rfl

theorem undisturbed_place : Undisturbed w stops (fun _ => True) place :=
  undisturbed_of_exec (exec_place w) (fun _ => rfl) fun _ => trivial

theorem undisturbed_setting? (name : String) :
    Undisturbed w stops (fun _ => True) (setting? name) :=
  undisturbed_read.bind fun _ _ => undisturbed_pure trivial

/-- In a quiet world no cancellation has been asked for. -/
theorem exec_isCancelled_of_isQuiet (hw : w.IsQuiet) (hm : m.cancelled = false) :
    exec isCancelled w m = (.ok false, m) := by
  obtain ⟨c, hexec, hiff⟩ := exec_isCancelled w m
  obtain rfl : c = false :=
    Bool.eq_false_iff.2 fun hc => not_cancelledBy hw hm _ (hiff.1 hc)
  exact hexec

theorem undisturbed_isCancelled (hw : w.IsQuiet) :
    Undisturbed w stops (· = false) isCancelled := by
  intro m hm
  rw [exec_isCancelled_of_isQuiet hw hm]
  exact ⟨hm, by rintro _ ⟨⟩; rfl, by rintro _ ⟨⟩⟩

/-- In a quiet world a command gives its output, or it fails since it could not be started, has
ended badly or was too slow. -/
theorem undisturbed_command (hw : w.IsQuiet) (argv : List String) (timeout : Binary64)
    (watching : Bool) (environment : Option (List (String × String))) (combined : Bool) :
    Undisturbed w (fun e => ∃ f, e = .failure (.tool f) ∧ f.IsEnd argv timeout) (fun _ => True)
      (command argv timeout watching environment combined) := by
  intro m hm
  cases hrespond : w.respond (m.started.map (·.command)) argv with
  | fails e =>
    rw [exec_command_of_fails hrespond]
    exact ⟨hm, fun _ _ => trivial, by rintro _ ⟨⟩; exact ⟨_, rfl, .failed ..⟩⟩
  | runs b =>
    obtain ⟨e, m', hexec, hcancelled, hself, hlate⟩ :=
      exists_exec_command hw hm timeout watching environment combined hrespond
    rw [hexec]
    refine ⟨hcancelled, fun _ _ => trivial, fun reason hreason => ?_⟩
    by_cases hinTime : b.InTime timeout
    · obtain rfl := hself hinTime
      exact result_isEnd hreason
    · obtain rfl := hlate hinTime
      cases hreason
      exact ⟨_, rfl, .timedOut⟩

end Undisturbed

end Run

/-! ## Worlds without surprises -/

/-- How a command behaves in a world depends on the command only, the present is always the same, no
wait is interrupted, and no cancellation is asked for. -/
structure World.IsSteady (w : World) : Prop where
  respond : ∀ before before' argv, w.respond before argv = w.respond before' argv
  now : ∀ clock clock', w.now clock = w.now clock'
  interruptions : ∀ before argv b, w.respond before argv = .runs b → b.interruptions = 0
  cancelAt : w.cancelAt = none

theorem World.IsSteady.isQuiet {w : World} (h : w.IsSteady) : w.IsQuiet :=
  ⟨h.interruptions, h.cancelAt⟩

namespace Run

variable {w : World}

/-- In a steady world a command gives the same on all machines. It changes at most the file that it
writes its report to, and a command that gives its output has left its report. -/
theorem exec_command_steady (hw : w.IsSteady) (argv : List String) (timeout : Binary64)
    (watching : Bool) (environment : Option (List (String × String))) (combined : Bool) :
    ∃ (r : Except Stop Bytes) (b : Behaviour),
      (∀ e, r = .error e → ∃ f, e = .failure (.tool f) ∧ f.IsEnd argv timeout) ∧
      (b.report = .none ∨ ∀ before, w.respond before argv = .runs b) ∧
      ∀ m : Machine, m.cancelled = false → ∃ m',
        exec (command argv timeout watching environment combined) w m = (r, m') ∧ m.Frame m' ∧
        (m'.files = m.files ∨ m'.files = b.leave argv w m.files) ∧
        ∀ output, r = .ok output → m'.files = b.leave argv w m.files := by
  cases hrespond : w.respond [] argv with
  | fails e =>
    refine ⟨.error (.failure (.tool (.failed argv (-1) e.message))), {}, ?_, .inl rfl, ?_⟩
    · rintro _ ⟨⟩
      exact ⟨_, rfl, .failed ..⟩
    · intro m hm
      have hfails : w.respond (m.started.map (·.command)) argv = .fails e := by
        rw [hw.respond _ [], hrespond]
      exact ⟨_, exec_command_of_fails hfails, ⟨rfl, rfl, rfl, rfl, rfl⟩, .inl rfl, by rintro _ ⟨⟩⟩
  | runs b =>
    have hruns : ∀ before, w.respond before argv = .runs b := by
      intro before
      rw [hw.respond _ [], hrespond]
    obtain ⟨e, herror, hending⟩ : ∃ e : Ending,
        (∀ reason, e.result (b.result argv combined) argv timeout = .error reason →
          ∃ f, reason = .failure (.tool f) ∧ f.IsEnd argv timeout) ∧
        ((b.InTime timeout → e = .byItself) ∧ (¬b.InTime timeout → e = .timedOut)) := by
      by_cases hinTime : b.InTime timeout
      · exact ⟨.byItself, fun _ => result_isEnd, fun _ => rfl, fun h => absurd hinTime h⟩
      · refine ⟨.timedOut, ?_, fun h => absurd h hinTime, fun _ => rfl⟩
        rintro _ ⟨⟩
        exact ⟨_, rfl, .timedOut⟩
    refine ⟨e.result (b.result argv combined) argv timeout, b, herror, .inr hruns, ?_⟩
    intro m hm
    obtain ⟨e', signals, m', hexec, hsupervised, -⟩ := exec_command timeout watching environment
      combined (hruns (m.started.map (·.command))) (hw.interruptions _ argv b (hruns []))
    have hstart : (launched argv environment m).cancelled = false := hm
    have hfits := eq_of_fits (fun _ => not_cancelledBy hw.isQuiet hstart) hsupervised.fits
    obtain rfl : e' = e := by
      by_cases hinTime : b.InTime timeout
      · rw [hfits.1 hinTime, hending.1 hinTime]
      · rw [hfits.2 hinTime, hending.2 hinTime]
    have hframe : m.Frame m' := ⟨hsupervised.frame.cancelled, hsupervised.frame.catching,
      hsupervised.frame.temporaries, hsupervised.frame.pauses, hsupervised.frame.printed⟩
    refine ⟨m', hexec, hframe, hsupervised.files, fun output hok => ?_⟩
    have hself : e' = .byItself := by
      cases e' with
      | byItself => rfl
      | timedOut => cases hok
      | cancelled => cases hok
    exact hsupervised.report hself rfl

end Run

/-! ## Commands that run to their end -/

instance (b : Behaviour) (timeout : Binary64) : Decidable (b.InTime timeout) :=
  inferInstanceAs (Decidable (∀ t ∈ deadline? 0 timeout, b.duration ≤ t ∧ 0 < t))

/-- What a command gives after others that were started before, the last one first. -/
def World.outcome (w : World) (timeout : Binary64) (before : List (List String))
    (argv : List String) : Except ToolFailure Bytes :=
  match w.respond before argv with
  | .fails e => .error (.failed argv (-1) e.message)
  | .runs b =>
    if b.InTime timeout then
      if b.status = 0 then .ok b.output
      else .error (.failed argv b.status (Encoding.decodeLossy b.errors))
    else .error (.timedOut argv timeout)

namespace Run

variable {w : World} {m : Machine} {argv : List String} {timeout : Binary64}

/-- A reason for which a command gives no output is that of its end. -/
theorem isEnd_of_outcome {before : List (List String)} {f : ToolFailure}
    (h : w.outcome timeout before argv = .error f) : f.IsEnd argv timeout := by
  rw [World.outcome] at h
  split at h
  · cases h
    exact .failed ..
  · split_ifs at h <;> cases h
    · exact .failed ..
    · exact .timedOut

/-- A command that is not interrupted, and that no cancellation is looked for, gives its outcome and
comes on top of the commands that were started before. -/
theorem exec_command_unwatched
    (hi : ∀ b, w.respond m.commands argv = .runs b → b.interruptions = 0) (timeout : Binary64)
    (environment : Option (List (String × String))) :
    ∃ m', exec (command argv timeout false environment false) w m =
        ((w.outcome timeout m.commands argv).mapError fun f => .failure (.tool f), m') ∧
      m'.commands = argv :: m.commands := by
  rw [World.outcome]
  cases hrespond : w.respond m.commands argv with
  | fails e => exact ⟨_, exec_command_of_fails hrespond, rfl⟩
  | runs b =>
    obtain ⟨e, signals, m', hexec, hsupervised, -⟩ :=
      exec_command timeout false environment false hrespond (hi b hrespond)
    have hend := eq_of_fits (b := b) (by rintro ⟨⟩) hsupervised.fits
    refine ⟨m', ?_, ?_⟩
    · rw [hexec]
      dsimp only
      by_cases hinTime : b.InTime timeout
      · rw [if_pos hinTime, hend.1 hinTime, Ending.result, Behaviour.result]
        by_cases hstatus : b.status = 0
        · rw [if_pos hstatus, if_pos hstatus]
          rfl
        · rw [if_neg hstatus, if_neg hstatus]
          rfl
      · rw [if_neg hinTime, hend.2 hinTime]
        rfl
    · rw [Machine.commands, hsupervised.started]
      rfl

/-- An attempt to run such a command gives its outcome as a value. -/
theorem exec_attempt_command_unwatched
    (hi : ∀ b, w.respond m.commands argv = .runs b → b.interruptions = 0) (timeout : Binary64)
    (environment : Option (List (String × String))) :
    ∃ m', exec (Adapter.attempt (command argv timeout false environment false)) w m =
        (.ok ((w.outcome timeout m.commands argv).mapError fun f => .failure (.tool f)), m') ∧
      m'.commands = argv :: m.commands := by
  obtain ⟨m', hexec, hcommands⟩ := exec_command_unwatched hi timeout environment
  exact ⟨m', by rw [exec_attempt, hexec], hcommands⟩

end Run
end ContainerDocs
