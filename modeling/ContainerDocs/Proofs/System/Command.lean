import ContainerDocs.Proofs.System.Supervise

/-!
# How commands end

A command is over when the step that runs it is, and what the step gives tells what happened to the
command.

## Main definitions

* `Behaviour.result`, `Behaviour.IsOver` — what a command that ends by itself gives, and when a
  command no longer runs.

## Main statements

* `Run.exec_command` — a command that can be started comes to an end.
* `Run.command_ends` — a command is over and its result is that of its end.
-/

namespace ContainerDocs

namespace Behaviour

def result (b : Behaviour) (argv : List String) (combined : Bool) : Except Stop Bytes :=
  let output := if combined then b.output ++ b.errors else b.output
  if b.status = 0 then .ok output
  else .error (.failure (.tool (.failed argv b.status
    (Encoding.decodeLossy (if combined then output else b.errors)))))

/-- A command that was started at one moment no longer runs at another: it has ended by itself, it
was killed, or it was asked to end and does not go on then. -/
def IsOver (b : Behaviour) (start : Rat) (signals : List Signal) (now : Rat) : Prop :=
  start + b.duration ≤ now ∨ .kill ∈ signals ∨ (.terminate ∈ signals ∧ b.stubborn = false)

end Behaviour

namespace Run

variable {w : World} {m : Machine} {p : Process}

/-! ## Commands -/

section Command

variable {argv : List String} {timeout : Binary64} {watching combined : Bool}
  {environment : Option (List (String × String))} {b : Behaviour}

/-- There are enough turns until a moment. -/
theorem exists_waits (clock limit : Rat) :
    ∃ n : Nat, waits clock limit = n + 1 ∧ limit ≤ clock + n * pollInterval := by
  refine ⟨((limit - clock) / pollInterval).ceil.toNat + 1, rfl, ?_⟩
  have hceil : (limit - clock) / pollInterval ≤ (((limit - clock) / pollInterval).ceil : Rat) :=
    Rat.le_ceil
  have hnat : (((limit - clock) / pollInterval).ceil : Rat) ≤
      (((limit - clock) / pollInterval).ceil.toNat : Nat) := by
    exact_mod_cast Int.self_le_toNat _
  have hturns := (div_le_iff₀ pollInterval_pos).1 (hceil.trans hnat)
  push_cast
  linarith [pollInterval_pos]

def launched (argv : List String) (environment : Option (List (String × String))) (m : Machine) :
    Machine :=
  { m with
    notes := (.debug, "Running: " ++ commandLine argv) :: m.notes,
    started := ⟨argv, [], environment⟩ :: m.started }

/-- A command that has just been started. -/
def process (argv : List String) (b : Behaviour) (m : Machine) : Process :=
  ⟨argv, b, m.clock + b.duration, b.interruptions, false⟩

theorem exec_launch (argv : List String) (environment : Option (List (String × String)))
    (w : World) (m : Machine) :
    exec (modify fun m => { m with started := ⟨argv, [], environment⟩ :: m.started } : Run Unit) w
        { m with notes := (.debug, "Running: " ++ commandLine argv) :: m.notes } =
      (.ok (), launched argv environment m) := rfl

theorem exec_command_of_fails {e : SystemError}
    (h : w.respond (m.started.map (·.command)) argv = .fails e) :
    exec (command argv timeout watching environment combined) w m =
      (.error (.failure (.tool (.failed argv (-1) e.message))), launched argv environment m) := by
  rw [command, debug, exec_bind, exec_note]
  dsimp only
  rw [exec_bind, exec_get]
  dsimp only
  rw [exec_bind, exec_launch]
  dsimp only
  rw [exec_bind, exec_read]
  dsimp only
  rw [h]
  exact exec_fail ..

/-- A command that can be started is waited for as many turns as it takes to end or to use up its
time. -/
theorem exec_command_of_runs (timeout : Binary64) (watching : Bool)
    (environment : Option (List (String × String))) (combined : Bool)
    (h : w.respond (m.started.map (·.command)) argv = .runs b) :
    ∃ (n : Nat) (own : Unit → Run Bytes),
      EnoughTurns n m.clock (process argv b m).finish (deadline? m.clock timeout) ∧
      (∀ w m, ∃ notes, exec (own ()) w m = (b.result argv combined, { m with notes := notes })) ∧
      exec (command argv timeout watching environment combined) w m =
        exec (supervise (n + 1) (process argv b m) timeout (deadline? m.clock timeout) watching >>=
          own) w (launched argv environment m) := by
  obtain ⟨last, own, hlast, hown, hcommand⟩ : ∃ (last : Rat) (own : Unit → Run Bytes),
      (last = m.clock + b.duration ∨ last ∈ deadline? m.clock timeout) ∧
      (∀ w m, ∃ notes, exec (own ()) w m = (b.result argv combined, { m with notes := notes })) ∧
      exec (command argv timeout watching environment combined) w m =
        exec (supervise (waits m.clock last) (process argv b m) timeout (deadline? m.clock timeout)
          watching >>= own) w (launched argv environment m) := by
    refine ⟨?last, ?own, ?limit, ?result, ?eq⟩
    case eq =>
      rw [command, debug, exec_bind, exec_note]
      dsimp only
      rw [exec_bind, exec_get]
      dsimp only
      rw [exec_bind, exec_launch]
      dsimp only
      rw [exec_bind, exec_read]
      dsimp only
      rw [h]
      dsimp only
      rw [exec_bind, exec_get]
      rfl
    case limit =>
      have hclock : (launched argv environment m).clock = m.clock := rfl
      rw [hclock]
      cases deadline? m.clock timeout with
      | none => exact .inl rfl
      | some d =>
        dsimp only
        unfold earlier
        split_ifs
        · exact .inl rfl
        · exact .inr rfl
    case result =>
      intro w m
      rw [Behaviour.result]
      by_cases hstatus : b.status = 0
      · rw [if_pos hstatus, if_neg (not_not.2 hstatus)]
        exact ⟨_, rfl⟩
      · rw [if_neg hstatus, if_pos hstatus]
        exact ⟨_, rfl⟩
  obtain ⟨n, hn, hle⟩ := exists_waits m.clock last
  rw [hn] at hcommand
  refine ⟨n, own, ?_, hown, hcommand⟩
  obtain rfl | hdeadline := hlast
  · exact .inl hle
  · exact .inr ⟨last, hdeadline, hle⟩

/-- A command that can be started comes to an end. If it is over before it would have ended by
itself, it does not matter when it would have. -/
theorem exec_command (timeout : Binary64) (watching : Bool)
    (environment : Option (List (String × String))) (combined : Bool)
    (hb : w.respond (m.started.map (·.command)) argv = .runs b) (hi : b.interruptions = 0) :
    ∃ (e : Ending) (signals : List Signal) (m' : Machine),
      exec (command argv timeout watching environment combined) w m =
        (e.result (b.result argv combined) argv timeout, m') ∧
      Supervised w (launched argv environment m) (process argv b m) ⟨argv, [], environment⟩
        m.started (deadline? m.clock timeout) watching e signals m' ∧
      (m'.clock < m.clock + b.duration → ∀ respond duration, b.duration ≤ duration →
        respond (m.started.map (·.command)) argv = .runs { b with duration := duration } →
        exec (command argv timeout watching environment combined) { w with respond := respond } m =
          (e.result (b.result argv combined) argv timeout, m')) := by
  obtain ⟨n, own, henough, hown, hcommand⟩ :=
    exec_command_of_runs timeout watching environment combined hb
  let start := launched argv environment m
  have hwaiting : Waiting start start (process argv b m) (deadline? m.clock timeout) :=
    ⟨.refl start, rfl, le_rfl, .inr rfl, fun _ _ => .inr rfl⟩
  have hend : ComesToEnd n w start start (process argv b m) ⟨argv, [], environment⟩ m.started
      timeout (deadline? m.clock timeout) watching := exec_supervise hi rfl hwaiting henough
  obtain ⟨e, signals, m₁, hrun, hsupervised, hlater⟩ := hend
  obtain ⟨notes, hexec, hsame⟩ : ∃ notes,
      exec (command argv timeout watching environment combined) w m =
        (e.result (b.result argv combined) argv timeout, { m₁ with notes := notes }) ∧
      (e ≠ .byItself → notes = m₁.notes) := by
    rw [hcommand, exec_bind, hrun]
    cases e with
    | byItself =>
      obtain ⟨notes, hresult⟩ := hown w m₁
      exact ⟨notes, hresult, fun h => absurd rfl h⟩
    | timedOut => exact ⟨m₁.notes, rfl, fun _ => rfl⟩
    | cancelled => exact ⟨m₁.notes, rfl, fun _ => rfl⟩
  refine ⟨e, signals, _, hexec, hsupervised.note notes, ?_⟩
  intro hearly respond duration hlonger hb'
  obtain ⟨k, own', henough', -, hcommand'⟩ :=
    exec_command_of_runs timeout watching environment combined
      (w := { w with respond := respond }) hb'
  have hq : Outlasts (process argv b m) (process argv { b with duration := duration } m) :=
    ⟨rfl, rfl, hi, add_le_add_right hlonger _⟩
  have hrun' := hlater hearly { w with respond := respond } _ k rfl hq henough'
  have hother : e ≠ .byItself := by
    rintro rfl
    exact absurd hsupervised.fits.1.1 hearly.not_ge
  rw [hcommand', exec_bind, hrun', hsame hother]
  cases e with
  | byItself => exact absurd rfl hother
  | timedOut => rfl
  | cancelled => rfl

/-- A command that ends before both its deadline and a cancellation ends by itself. -/
theorem eq_byItself_of_fits {e : Ending} {finish now : Rat} {deadline : Option Rat}
    {signals : List Signal} (h : e.Fits w m finish deadline watching signals now)
    (hstart : m.clock ≤ finish) (hdeadline : ∀ d ∈ deadline, finish < d)
    (hcancelled : watching = true → ¬w.CancelledBy m finish) : e = .byItself := by
  cases e with
  | byItself => rfl
  | timedOut =>
    obtain ⟨-, d, hd, -, hlate⟩ := h
    have hbefore := hdeadline d hd
    obtain hlate | hlate := hlate <;> linarith
  | cancelled =>
    obtain ⟨-, hwatching, t, -, -, hearly, hasked⟩ := h
    have hle : t ≤ finish := by
      obtain hearly | rfl := hearly
      · exact hearly.le
      · exact hstart
    refine absurd ?_ (hcancelled hwatching)
    obtain hasked | ⟨s, hs, hst⟩ := hasked
    · exact .inl hasked
    · exact .inr ⟨s, hs, hst.trans hle⟩

end Command

end Run
end ContainerDocs
