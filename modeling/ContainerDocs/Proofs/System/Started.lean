import ContainerDocs.Proofs.System.TextFiles
import ContainerDocs.System.Command

/-!
# Which commands are started

The commands that a step starts come on top of those that have been started before. Waiting for a
command and ending it start nothing.

## Main definitions

* `Machine.Starts` — further commands have been started, all of them of one class.
* `Run.StartsWith`, `Run.Starts` — a step starts commands of one class only.

## Main statements

* `Run.StartsWith.bind` — steps in a row start what each of them starts.
* `Run.starts_command` — a command is all that running it starts.
-/

namespace ContainerDocs

def Machine.commands (m : Machine) : List (List String) := m.started.map (·.command)

def Machine.Starts (allowed : List String → Prop) (m m' : Machine) : Prop :=
  ∃ further, m'.commands = further ++ m.commands ∧ ∀ argv ∈ further, allowed argv

namespace Machine.Starts

variable {allowed allowed' : List String → Prop} {m m' m'' : Machine}

theorem of_eq (h : m'.commands = m.commands) : Machine.Starts allowed m m' :=
  ⟨[], h, by simp⟩

theorem refl (m : Machine) : Machine.Starts allowed m m := of_eq rfl

theorem trans (h : Machine.Starts allowed m m') (h' : Machine.Starts allowed m' m'') :
    Machine.Starts allowed m m'' := by
  obtain ⟨first, hfirst, hall⟩ := h
  obtain ⟨last, hlast, hall'⟩ := h'
  refine ⟨last ++ first, by rw [hlast, hfirst, List.append_assoc], fun argv hargv => ?_⟩
  obtain hmem | hmem := List.mem_append.1 hargv
  · exact hall' argv hmem
  · exact hall argv hmem

theorem mono (h : Machine.Starts allowed m m') (hallowed : ∀ argv, allowed argv → allowed' argv) :
    Machine.Starts allowed' m m' := by
  obtain ⟨further, hfurther, hall⟩ := h
  exact ⟨further, hfurther, fun argv hargv => hallowed argv (hall argv hargv)⟩

end Machine.Starts

namespace Run

variable {α β : Type} {allowed allowed' : List String → Prop} {w : World}

/-- In a world, a step starts commands of one class only, and what it gives has a property. -/
def StartsWith (allowed : List String → Prop) (w : World) (given : α → Prop)
    (step : Run α) : Prop :=
  ∀ m : Machine, m.Starts allowed (exec step w m).2 ∧ ∀ a, (exec step w m).1 = .ok a → given a

def Starts (allowed : List String → Prop) (w : World) (step : Run α) : Prop :=
  StartsWith allowed w (fun _ => True) step

/-! ## Steps in a row -/

theorem StartsWith.starts {given : α → Prop} {step : Run α} (h : StartsWith allowed w given step) :
    Starts allowed w step :=
  fun m => ⟨(h m).1, fun _ _ => trivial⟩

theorem Starts.of_exec {step : Run α} (h : ∀ m : Machine, m.Starts allowed (exec step w m).2) :
    Starts allowed w step :=
  fun m => ⟨h m, fun _ _ => trivial⟩

theorem StartsWith.bind {given : α → Prop} {given' : β → Prop} {step : Run α} {next : α → Run β}
    (h : StartsWith allowed w given step)
    (h' : ∀ a, given a → StartsWith allowed w given' (next a)) :
    StartsWith allowed w given' (step >>= next) := by
  intro m
  obtain ⟨hstarts, hgiven⟩ := h m
  rw [exec_bind]
  rcases hm : exec step w m with ⟨e | a, m₁⟩ <;> rw [hm] at hstarts hgiven
  · exact ⟨hstarts, fun _ hb => nomatch hb⟩
  · obtain ⟨hstarts', hgiven'⟩ := h' a (hgiven a rfl) m₁
    exact ⟨hstarts.trans hstarts', hgiven'⟩

theorem StartsWith.bind_starts {given : α → Prop} {step : Run α} {next : α → Run β}
    (h : StartsWith allowed w given step) (h' : ∀ a, given a → Starts allowed w (next a)) :
    Starts allowed w (step >>= next) :=
  StartsWith.bind h h'

theorem Starts.bind_with {given : β → Prop} {step : Run α} {next : α → Run β}
    (h : Starts allowed w step) (h' : ∀ a, StartsWith allowed w given (next a)) :
    StartsWith allowed w given (step >>= next) :=
  StartsWith.bind h fun a _ => h' a

theorem Starts.bind {step : Run α} {next : α → Run β} (h : Starts allowed w step)
    (h' : ∀ a, Starts allowed w (next a)) : Starts allowed w (step >>= next) :=
  StartsWith.bind h fun a _ => h' a

theorem Starts.map {step : Run α} (h : Starts allowed w step) (f : α → β) :
    Starts allowed w (f <$> step) := by
  refine .of_exec fun m => ?_
  rw [exec_map]
  exact (h m).1

theorem Starts.mono {step : Run α} (h : Starts allowed w step)
    (hallowed : ∀ argv, allowed argv → allowed' argv) : Starts allowed' w step :=
  fun m => ⟨(h m).1.mono hallowed, fun _ _ => trivial⟩

theorem Starts.tryCatch {step : Run α} {handle : Stop → Run α} (h : Starts allowed w step)
    (h' : ∀ e, Starts allowed w (handle e)) : Starts allowed w (tryCatch step handle) := by
  refine .of_exec fun m => ?_
  have hstarts := (h m).1
  rw [exec_tryCatch]
  rcases hm : exec step w m with ⟨e | a, m₁⟩ <;> rw [hm] at hstarts
  · exact hstarts.trans (h' e m₁).1
  · exact hstarts

theorem Starts.attempt {step : Run α} (h : Starts allowed w step) :
    Starts allowed w (Adapter.attempt step) := by
  refine .of_exec fun m => ?_
  rw [exec_attempt]
  exact (h m).1

theorem Starts.catching {step : Run α} (h : Starts allowed w step) :
    Starts allowed w (catching step) := by
  refine .of_exec fun m => ?_
  rw [exec_catching]
  exact (h { m with catching := true, cancelled := false }).1

theorem StartsWith.ite {given : α → Prop} {c : Prop} [Decidable c] {step step' : Run α}
    (h : StartsWith allowed w given step) (h' : StartsWith allowed w given step') :
    StartsWith allowed w given (if c then step else step') := by
  split_ifs
  · exact h
  · exact h'

theorem Starts.ite {c : Prop} [Decidable c] {step step' : Run α} (h : Starts allowed w step)
    (h' : Starts allowed w step') : Starts allowed w (if c then step else step') :=
  StartsWith.ite h h'

/-! ## Steps that start nothing -/

theorem startsWith_pure {given : α → Prop} {a : α} (h : given a) :
    StartsWith allowed w given (pure a) :=
  fun m => ⟨.refl m, fun b hb => by cases hb; exact h⟩

theorem starts_pure (a : α) : Starts allowed w (pure a) := startsWith_pure trivial

theorem starts_throw (e : Stop) : Starts allowed w (throw e : Run α) := .of_exec .refl

theorem starts_fail (f : Failure) : Starts allowed w (fail f : Run α) := starts_throw _

theorem starts_ofExcept (r : Except Stop α) : Starts allowed w (ofExcept r) := by
  cases r with
  | ok a => exact starts_pure a
  | error e => exact starts_throw e

theorem startsWith_read : StartsWith allowed w (· = w) (read : Run World) :=
  fun m => ⟨.refl m, fun _ h => by cases h; rfl⟩

theorem starts_read : Starts allowed w (read : Run World) := startsWith_read.starts

theorem starts_get : Starts allowed w (get : Run Machine) := .of_exec .refl

/-- A change of the machine that leaves the list of commands. -/
theorem starts_modify {f : Machine → Machine} (h : ∀ m, (f m).commands = m.commands) :
    Starts allowed w (modify f : Run Unit) :=
  .of_exec fun m => .of_eq (h m)

theorem starts_note (level : Level) (text : String) : Starts allowed w (note level text) :=
  starts_modify fun _ => rfl

theorem starts_notes (level : Level) (text : β → String) (bs : List β) :
    Starts allowed w (bs.forM fun b => note level (text b)) := by
  induction bs with
  | nil => exact starts_pure ()
  | cons b bs ih => exact (starts_note _ _).bind fun _ => ih

theorem starts_place : Starts allowed w place := starts_read.bind fun _ => starts_pure _

theorem starts_isCancelled : Starts allowed w isCancelled :=
  starts_get.bind fun _ => starts_read.bind fun _ => starts_pure _

theorem starts_interrupt : Starts allowed w interrupt := by
  refine starts_get.bind fun m => .ite ?_ (starts_throw _)
  exact (starts_note _ _).bind fun _ => starts_modify fun _ => rfl

theorem starts_pause (seconds : Rat) : Starts allowed w (pause seconds) :=
  starts_modify fun _ => rfl

theorem starts_setting? (name : String) : Starts allowed w (setting? name) :=
  starts_read.bind fun _ => starts_pure _

theorem starts_readText (path : String) : Starts allowed w (readText path) := by
  refine .of_exec fun m => ?_
  rw [exec_readText]
  split <;> exact .refl m

theorem starts_print (text : Text) : Starts allowed w (print text) := by
  rw [print]
  split
  · exact starts_modify fun _ => rfl
  · exact starts_throw _

theorem starts_printLine (text : Text) : Starts allowed w (printLine text) := starts_print _

theorem starts_writeText (path : String) (text : Text) :
    Starts allowed w (writeText path text) := by
  refine .of_exec fun m => ?_
  rw [exec_writeText]
  split
  · exact .refl m
  · split <;> exact .of_eq rfl

/-! ## Commands -/

theorem starts_signal (s : Signal) : Starts allowed w (signal s) := by
  refine starts_modify fun m => ?_
  split
  next => rfl
  next c rest hstarted =>
    rw [Machine.commands, Machine.commands, hstarted]
    rfl

theorem starts_leaveReport (p : Process) : Starts allowed w (leaveReport p) :=
  starts_place.bind fun _ => starts_get.bind fun _ => starts_modify fun _ => rfl

theorem starts_wait (p : Process) (limit : Option Rat) : Starts allowed w (wait p limit) := by
  refine starts_get.bind fun m => ?_
  extract_lets before advance
  have hclock : ∀ t : Rat, Starts allowed w (modify fun m => { m with clock := t } : Run Unit) :=
    fun _ => starts_modify fun _ => rfl
  have hadvance : ∀ q, Starts allowed w (advance q) := by
    intro q
    refine .ite ((hclock _).bind fun _ => ?_) ((hclock _).bind fun _ => starts_pure _)
    exact .ite ((starts_leaveReport q).bind fun _ => starts_pure _) (starts_pure _)
  refine .ite (hadvance p) ?_
  have hinterrupt : Starts allowed w
      (tryCatch (do interrupt; pure false) fun _ => pure true : Run Bool) :=
    (starts_interrupt.bind fun _ => starts_pure _).tryCatch fun _ => starts_pure _
  exact hinterrupt.bind fun _ => .ite (starts_pure _) (hadvance _)

theorem starts_stop (p : Process) : Starts allowed w (stop p) := by
  refine (starts_signal _).bind fun _ => starts_get.bind fun m => ?_
  refine (starts_wait _ _).bind fun r => .ite ?_ (starts_pure _)
  refine starts_get.bind fun m => (starts_note _ _).bind fun _ => (starts_signal _).bind fun _ => ?_
  exact starts_get.bind fun m => starts_wait _ _

theorem starts_stopInterrupted (p : Process) : Starts allowed w (stopInterrupted p : Run α) :=
  (starts_stop p).bind fun _ => starts_throw _

theorem starts_giveUp (p : Process) (f : ToolFailure) : Starts allowed w (giveUp p f : Run α) := by
  refine (starts_stop p).bind fun r => ?_
  split
  · exact starts_stopInterrupted _
  · exact starts_throw _

theorem starts_supervise (n : Nat) (p : Process) (timeout : Binary64) (deadline : Option Rat)
    (watching : Bool) : Starts allowed w (supervise n p timeout deadline watching) := by
  induction n generalizing p with
  | zero => exact starts_giveUp _ _
  | succ n ih =>
    rw [supervise]
    refine starts_isCancelled.bind fun _ => ?_
    extract_lets afterCancelled
    have hafter : ∀ u, Starts allowed w (afterCancelled u) := by
      intro u
      refine starts_get.bind fun m => ?_
      extract_lets remaining limit onTime
      have honTime : ∀ u, Starts allowed w (onTime u) := by
        intro u
        refine (starts_wait _ _).bind fun r => ?_
        split
        · exact starts_pure _
        · exact ih _
        · exact starts_stopInterrupted _
      exact .ite ((starts_giveUp _ _).bind honTime) (honTime ())
    exact .ite ((starts_giveUp _ _).bind hafter) (hafter ())

/-- Running a command starts that command and no other one, whether it can be started or not. -/
theorem starts_command {argv : List String} (h : allowed argv) (timeout : Binary64)
    (watching : Bool) (environment : Option (List (String × String))) (combined : Bool) :
    Starts allowed w (command argv timeout watching environment combined) := by
  refine (starts_note _ _).bind fun _ => starts_get.bind fun m => ?_
  extract_lets before
  have hstart : Starts allowed w
      (modify fun m => { m with started := ⟨argv, [], environment⟩ :: m.started } : Run Unit) :=
    .of_exec fun m => ⟨[argv], rfl, by simpa using h⟩
  refine hstart.bind fun _ => starts_read.bind fun w' => ?_
  split
  · exact starts_fail _
  · refine starts_get.bind fun m => ?_
    extract_lets clock finish deadline last output succeeded
    have hsucceeded : ∀ u, Starts allowed w (succeeded u) :=
      fun _ => (starts_note _ _).bind fun _ => starts_pure _
    refine (starts_supervise _ _ _ _ _).bind fun _ => ?_
    exact .ite ((starts_fail _).bind hsucceeded) (hsucceeded ())

end Run
end ContainerDocs
