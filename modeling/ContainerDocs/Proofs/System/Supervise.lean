import ContainerDocs.Proofs.System.Run
import ContainerDocs.System.Command
import Mathlib.Data.Rat.Floor

/-!
# Waiting for commands

A command runs beside a clock, a time limit and a cancellation that may be asked for at any moment.
However it behaves, the wait for it comes to an end, and it is over then.

## Main definitions

* `World.CancelledBy` — a cancellation has been asked for by a moment.
* `Ending` — how a command ends.
* `Machine.Frame` — what a command does not change.
* `Run.Supervised` — what is known about a command after the wait for it.

## Main statements

* `Run.exec_giveUp` — a command that is given up is over.
* `Run.exec_supervise` — waiting for a command comes to an end.
-/

namespace ContainerDocs

def World.CancelledBy (w : World) (m : Machine) (t : Rat) : Prop :=
  m.cancelled = true ∨ ∃ s ∈ w.cancelAt, s ≤ t

inductive Ending where
  | byItself | timedOut | cancelled
deriving DecidableEq, Repr

/-- What is made of a command that ends so and gives something when it ends by itself. -/
def Ending.result {α : Type} (own : Except Stop α) (argv : List String) (timeout : Binary64) :
    Ending → Except Stop α
  | .byItself => own
  | .timedOut => .error (.failure (.tool (.timedOut argv timeout)))
  | .cancelled => .error (.failure (.tool (.cancelled argv)))

/-- What has happened to a command that ran from one moment and would end at another, with a
deadline and with a cancellation that is looked for if `watching` tells so: it ended by itself
before its deadline was over, or it was asked to end, either since it was still running at its
deadline or since a cancellation had been asked for by a moment at which it was still running. -/
def Ending.Fits (w : World) (m : Machine) (finish : Rat) (deadline : Option Rat) (watching : Bool)
    (signals : List Signal) (now : Rat) : Ending → Prop
  | .byItself => (finish ≤ now ∧ signals = []) ∧ ∀ d ∈ deadline, finish ≤ d ∧ m.clock < d
  | .timedOut => .terminate ∈ signals ∧
      ∃ d ∈ deadline, d ≤ now ∧ (d < finish ∨ d ≤ m.clock)
  | .cancelled => .terminate ∈ signals ∧ watching = true ∧
      ∃ t, m.clock ≤ t ∧ t ≤ now ∧ (t < finish ∨ t = m.clock) ∧ w.CancelledBy m t

/-- What a command does not change: it starts, lets time pass, notes what it does and leaves its
report. -/
structure Machine.Frame (m m' : Machine) : Prop where
  cancelled : m'.cancelled = m.cancelled
  catching : m'.catching = m.catching
  temporaries : m'.temporaries = m.temporaries
  pauses : m'.pauses = m.pauses
  printed : m'.printed = m.printed

theorem Machine.Frame.refl (m : Machine) : m.Frame m := ⟨rfl, rfl, rfl, rfl, rfl⟩

theorem Machine.Frame.trans {m m' m'' : Machine} (h : m.Frame m') (h' : m'.Frame m'') :
    m.Frame m'' :=
  ⟨h'.cancelled.trans h.cancelled, h'.catching.trans h.catching,
    h'.temporaries.trans h.temporaries, h'.pauses.trans h.pauses, h'.printed.trans h.printed⟩

theorem Machine.Frame.later {m m' : Machine} (h : m.Frame m') (t : Rat) (files : Files) :
    m.Frame { m' with clock := t, files := files } :=
  ⟨h.cancelled, h.catching, h.temporaries, h.pauses, h.printed⟩

/-- The files once a command that behaves so has left its report. -/
def Behaviour.leave (b : Behaviour) (command : List String) (w : World) (files : Files) : Files :=
  match b.report with
  | .none => files
  | .written content =>
    (files.write w.place (command.getLast?.getD "") content).toOption.getD files
  | .removed => (files.remove w.place (command.getLast?.getD "")).toOption.getD files

/-- The files once a process has left its report. -/
def Process.leave (p : Process) (w : World) (files : Files) : Files :=
  p.behaviour.leave p.command w files

def Process.MayLeave (p : Process) (w : World) (files files' : Files) : Prop :=
  files' = files ∨ files' = p.leave w files

theorem Process.mayLeave_ite (p : Process) (w : World) (files : Files) :
    p.MayLeave w files (if p.stopped then files else p.leave w files) := by
  split_ifs
  · exact .inl rfl
  · exact .inr rfl

namespace Run

variable {α : Type} {w : World} {m : Machine} {p : Process}

theorem exec_isCancelled (w : World) (m : Machine) :
    ∃ c, exec isCancelled w m = (.ok c, m) ∧ (c = true ↔ w.CancelledBy m m.clock) := by
  refine ⟨_, rfl, ?_⟩
  cases h : w.cancelAt <;> simp [World.CancelledBy, h]

/-! ## Moments -/

theorem gracePeriod_pos : 0 < gracePeriod := by norm_num [gracePeriod]

theorem pollInterval_pos : 0 < pollInterval := by norm_num [pollInterval]

theorem later_eq_max (s t : Rat) : later s t = max s t := by
  rw [later, max_def]

theorem earlier_eq_min (s t : Rat) : earlier s t = min s t := by
  rw [earlier, min_def]

/-! ## Waiting -/

theorem exec_leaveReport (p : Process) (w : World) (m : Machine) :
    exec (leaveReport p) w m = (.ok (), { m with files := p.leave w m.files }) := rfl

/-- A wait that is long enough sees the command end, which then leaves its report unless it was made
to end. -/
theorem exec_wait_ended (h : p.interruptions = 0) (limit : Option Rat)
    (hlimit : ∀ t ∈ limit, p.finish ≤ m.clock + t) :
    exec (wait p limit) w m = (.ok (.ended, p), { m with
      clock := later m.clock p.finish
      files := if p.stopped then m.files else p.leave w m.files }) := by
  rw [wait, exec_bind, exec_get]
  dsimp only
  rw [if_pos h, if_pos]
  · cases p.stopped with
    | true => rfl
    | false =>
      exact exec_bind_eq_ok.2 ⟨(), _, rfl, exec_bind_eq_ok.2 ⟨(), _, exec_leaveReport .., rfl⟩⟩
  · cases limit with
    | none => rfl
    | some t => exact decide_eq_true (hlimit t rfl)

/-- A wait that is too short only lets time pass. -/
theorem exec_wait_running (h : p.interruptions = 0) {t : Rat} (hlate : m.clock + t < p.finish) :
    exec (wait p (some t)) w m = (.ok (.running, p), { m with clock := m.clock + t }) := by
  rw [wait, exec_bind, exec_get]
  dsimp only
  rw [if_pos h, if_neg (by simpa using hlate)]
  rfl

/-! ## Ending a command -/

/-- A machine whose last command was sent signals; the other commands were started before. -/
def signalled (c : Started) (rest : List Started) (signals : List Signal) (m : Machine) : Machine :=
  { m with started := { c with signals := signals ++ c.signals } :: rest }

@[simp] theorem signalled_clock (c : Started) (rest : List Started) (signals : List Signal)
    (m : Machine) : (signalled c rest signals m).clock = m.clock := rfl

theorem exec_signal (c : Started) (rest : List Started) (signals : List Signal) (s : Signal)
    (hm : m.started = { c with signals := signals ++ c.signals } :: rest) :
    exec (signal s) w m = (.ok (), signalled c rest (s :: signals) m) := by
  obtain ⟨⟩ := m
  cases hm
  rfl

/-- The command that was started last is over after it was asked to end. -/
structure Ended (w : World) (p : Process) (c : Started) (rest : List Started) (m : Machine)
    (signals : List Signal) (m' : Machine) : Prop where
  frame : m.Frame m'
  files : p.MayLeave w m.files m'.files
  started : m'.started = { c with signals := signals ++ c.signals } :: rest
  asked : .terminate ∈ signals
  isOver : p.finish ≤ m'.clock ∨ .kill ∈ signals ∨ p.behaviour.stubborn = false
  le_clock : m.clock ≤ m'.clock
  clock_le : m'.clock ≤ m.clock + gracePeriod

/-- A command like another one that takes longer, or as long. -/
structure Outlasts (p q : Process) : Prop where
  command : q.command = p.command
  stubborn : q.behaviour.stubborn = p.behaviour.stubborn
  interruptions : q.interruptions = 0
  finish : p.finish ≤ q.finish

section Stop

variable {c : Started} {rest : List Started}

/-- A command that ends by itself while it has time to. -/
theorem exec_stop_inTime (h : p.interruptions = 0) (hm : m.started = c :: rest)
    (hgoesOn : p.behaviour.stubborn = true ∨ p.finish ≤ m.clock)
    (hfinish : p.finish ≤ m.clock + gracePeriod) :
    ∃ m', exec (stop p) w m = (.ok (.ended, p), m') ∧ p.finish ≤ m'.clock ∧
      Ended w p c rest m [.terminate] m' := by
  let asked := signalled c rest [.terminate] m
  have hwait := exec_wait_ended (w := w) (m := asked) h (some gracePeriod)
    (by simpa [asked] using hfinish)
  have hlate : p.finish ≤ later m.clock p.finish := by
    rw [later_eq_max]
    exact le_max_right _ _
  have hearly : later m.clock p.finish ≤ m.clock + gracePeriod := by
    rw [later_eq_max]
    exact max_le (le_add_of_nonneg_right gracePeriod_pos.le) hfinish
  have hclock : m.clock ≤ later m.clock p.finish := by
    rw [later_eq_max]
    exact le_max_left _ _
  have hgoesOn : p.behaviour.stubborn = true ∨ p.finish ≤ asked.clock := hgoesOn
  refine ⟨{ asked with
      clock := later m.clock p.finish
      files := if p.stopped then m.files else p.leave w m.files }, ?_, hlate,
    ⟨⟨rfl, rfl, rfl, rfl, rfl⟩, p.mayLeave_ite w m.files, rfl, by simp, .inl hlate, hclock, hearly⟩⟩
  rw [stop, exec_bind, exec_signal c rest [] .terminate hm]
  dsimp only
  rw [exec_bind, exec_get]
  dsimp only
  rw [if_pos (by simpa only [Bool.or_eq_true, decide_eq_true_eq] using hgoesOn), exec_bind, hwait]
  rfl

/-- A command that does what it is asked to. -/
theorem exec_stop_obedient (hp : p.behaviour.stubborn = false) (hm : m.started = c :: rest) :
    ∃ m', Ended w p c rest m [.terminate] m' ∧ m'.clock = m.clock ∧
      ∀ w (q : Process), q.interruptions = 0 → q.behaviour.stubborn = false →
        m.clock < q.finish → ∃ q', exec (stop q) w m = (.ok (.ended, q'), m') := by
  let asked := signalled c rest [.terminate] m
  have hlast : m.clock ≤ m.clock + gracePeriod := le_add_of_nonneg_right gracePeriod_pos.le
  have hframe : m.Frame asked := ⟨rfl, rfl, rfl, rfl, rfl⟩
  refine ⟨asked, ⟨hframe, .inl rfl, rfl, by simp, .inr (.inr hp), le_refl _, hlast⟩, rfl,
    fun w q h hq hfinish => ?_⟩
  let ending : Process := { q with finish := asked.clock, stopped := true }
  have hwait := exec_wait_ended (w := w) (m := asked) (p := ending) h
    (some gracePeriod) (by simpa [ending] using gracePeriod_pos.le)
  have hclock : later asked.clock ending.finish = asked.clock := by
    rw [later_eq_max]
    exact max_self _
  have hended : exec (wait ending (some gracePeriod)) w asked = (.ok (.ended, ending), asked) := by
    rw [hwait, hclock]
    rfl
  have hfinish : asked.clock < q.finish := hfinish
  refine ⟨ending, ?_⟩
  rw [stop, exec_bind, exec_signal c rest [] .terminate hm]
  dsimp only
  rw [exec_bind, exec_get]
  dsimp only
  rw [if_neg (by simpa only [hq, Bool.false_or, decide_eq_true_eq, not_le] using hfinish),
    exec_bind, hended]
  rfl

/-- A command that is killed. -/
theorem exec_stop_killed (hm : m.started = c :: rest) :
    ∃ m', Ended w p c rest m [.kill, .terminate] m' ∧ m'.clock = m.clock + gracePeriod ∧
      ∀ w (q : Process), q.interruptions = 0 → q.behaviour.stubborn = true →
        m.clock + gracePeriod < q.finish → ∃ q', exec (stop q) w m = (.ok (.ended, q'), m') := by
  let asked := signalled c rest [.terminate] m
  let late : Machine := { asked with
    clock := asked.clock + gracePeriod,
    notes := (.debug, "Process " ++ toString asked.started.length ++
      " did not terminate, killing...") :: asked.notes }
  let killed := signalled c rest [.kill, .terminate] late
  have hlast : m.clock ≤ m.clock + gracePeriod := le_add_of_nonneg_right gracePeriod_pos.le
  have hframe : m.Frame killed := ⟨rfl, rfl, rfl, rfl, rfl⟩
  refine ⟨killed, ⟨hframe, .inl rfl, rfl, by simp, .inr (.inl (by simp)), hlast, le_refl _⟩, rfl,
    fun w q h hq hfinish => ?_⟩
  let ending : Process := { q with finish := killed.clock, stopped := true }
  have hwait := exec_wait_ended (w := w) (m := killed) (p := ending) h none (by simp)
  have hclock : later killed.clock ending.finish = killed.clock := by
    rw [later_eq_max]
    exact max_self _
  have hended : exec (wait ending none) w killed = (.ok (.ended, ending), killed) := by
    rw [hwait, hclock]
    rfl
  have hrunning := exec_wait_running (w := w) (m := asked) h hfinish
  refine ⟨ending, ?_⟩
  rw [stop, exec_bind, exec_signal c rest [] .terminate hm]
  dsimp only
  rw [exec_bind, exec_get]
  dsimp only
  rw [if_pos (by simp [hq]), exec_bind, hrunning]
  dsimp only
  rw [if_pos rfl, exec_bind, exec_get]
  dsimp only
  rw [debug, exec_bind, exec_note]
  dsimp only
  rw [exec_bind, exec_signal (m := late) c rest [.terminate] .kill rfl]
  dsimp only
  rw [exec_bind, exec_get]
  exact hended

theorem exec_giveUp_of_stop {q : Process} {m' : Machine} (f : ToolFailure)
    (h : exec (stop p) w m = (.ok (.ended, q), m')) :
    exec (giveUp p f : Run α) w m = (.error (.failure (.tool f)), m') := by
  rw [giveUp, exec_bind, h]
  rfl

/-- Giving a command up ends it. If it is over before its time, it does not matter when it would
have ended by itself. -/
theorem exec_giveUp (h : p.interruptions = 0) (hm : m.started = c :: rest) (f : ToolFailure) :
    ∃ signals m', exec (giveUp p f : Run α) w m = (.error (.failure (.tool f)), m') ∧
      Ended w p c rest m signals m' ∧
      (m'.clock < p.finish → ∀ w' q, Outlasts p q →
        exec (giveUp q f : Run α) w' m = (.error (.failure (.tool f)), m')) := by
  have hself : Outlasts p p := ⟨rfl, rfl, h, le_rfl⟩
  by_cases hearly : p.finish ≤ m.clock
  · have hfinish : p.finish ≤ m.clock + gracePeriod :=
      hearly.trans (le_add_of_nonneg_right gracePeriod_pos.le)
    obtain ⟨m', hstop, hclock, hended⟩ := exec_stop_inTime (w := w) h hm (.inr hearly) hfinish
    exact ⟨_, m', exec_giveUp_of_stop f hstop, hended, fun hlate => absurd hclock hlate.not_ge⟩
  cases hstubborn : p.behaviour.stubborn with
  | false =>
    obtain ⟨m', hended, -, hall⟩ := exec_stop_obedient (w := w) hstubborn hm
    have hgiveUp : ∀ w' q, Outlasts p q →
        exec (giveUp q f : Run α) w' m = (.error (.failure (.tool f)), m') := by
      intro w' q hq
      obtain ⟨q', hstop⟩ := hall w' q hq.interruptions (hq.stubborn.trans hstubborn)
        ((not_le.1 hearly).trans_le hq.finish)
      exact exec_giveUp_of_stop f hstop
    exact ⟨_, m', hgiveUp w p hself, hended, fun _ => hgiveUp⟩
  | true =>
    by_cases hgrace : p.finish ≤ m.clock + gracePeriod
    · obtain ⟨m', hstop, hclock, hended⟩ := exec_stop_inTime (w := w) h hm (.inl hstubborn) hgrace
      exact ⟨_, m', exec_giveUp_of_stop f hstop, hended, fun hlate => absurd hclock hlate.not_ge⟩
    · obtain ⟨m', hended, -, hall⟩ := exec_stop_killed (w := w) (p := p) hm
      have hgiveUp : ∀ w' q, Outlasts p q →
          exec (giveUp q f : Run α) w' m = (.error (.failure (.tool f)), m') := by
        intro w' q hq
        obtain ⟨q', hstop⟩ := hall w' q hq.interruptions (hq.stubborn.trans hstubborn)
          ((not_le.1 hgrace).trans_le hq.finish)
        exact exec_giveUp_of_stop f hstop
      exact ⟨_, m', hgiveUp w p hself, hended, fun _ => hgiveUp⟩

end Stop

/-! ## Turns of the wait -/

section Turn

variable {n : Nat} {timeout : Binary64} {deadline : Option Rat} {watching : Bool}

def turn (watching : Bool) (deadline : Option Rat) (now : Rat) : Option Rat :=
  if watching then some (earlier pollInterval ((deadline.map (· - now)).getD pollInterval))
  else deadline.map (· - now)

/-- Nothing ends the wait before the next turn. -/
structure GoesOn (w : World) (m : Machine) (deadline : Option Rat) (watching : Bool) : Prop where
  uncancelled : watching = true → ¬w.CancelledBy m m.clock
  early : ∀ d ∈ deadline, m.clock < d

theorem exec_supervise_cancelled (hwatching : watching = true) (hc : w.CancelledBy m m.clock)
    {e : Stop} {m' : Machine}
    (h : exec (giveUp p (.cancelled p.command) : Run Unit) w m = (.error e, m')) :
    exec (supervise (n + 1) p timeout deadline watching) w m = (.error e, m') := by
  obtain ⟨c, hcancelled, hiff⟩ := exec_isCancelled w m
  rw [supervise, exec_bind, hcancelled]
  dsimp only
  rw [if_pos (by simp [hwatching, hiff, hc]), exec_bind, h]

theorem exec_supervise_timedOut (huncancelled : watching = true → ¬w.CancelledBy m m.clock)
    {d : Rat} (hd : d ∈ deadline) (hlate : d ≤ m.clock) {e : Stop} {m' : Machine}
    (h : exec (giveUp p (.timedOut p.command timeout) : Run Unit) w m = (.error e, m')) :
    exec (supervise (n + 1) p timeout deadline watching) w m = (.error e, m') := by
  obtain ⟨c, hcancelled, hiff⟩ := exec_isCancelled w m
  have hgoesOn : ¬(watching && c) = true := by
    rw [Bool.and_eq_true, hiff]
    exact fun hboth => huncancelled hboth.1 hboth.2
  cases hd
  rw [supervise, exec_bind, hcancelled]
  dsimp only
  rw [if_neg hgoesOn, exec_bind, exec_get]
  dsimp only
  rw [if_pos (by simpa using hlate), exec_bind, h]

/-- A turn that nothing comes before is a wait. -/
theorem exec_supervise_turn (n : Nat) (p : Process) (timeout : Binary64)
    (hgoesOn : GoesOn w m deadline watching) :
    ∃ next : Waited × Process → Run Unit, (∀ q, next (.ended, q) = pure ()) ∧
      (∀ q, next (.running, q) = supervise n q timeout deadline watching) ∧
      exec (supervise (n + 1) p timeout deadline watching) w m =
        exec (wait p (turn watching deadline m.clock) >>= next) w m := by
  obtain ⟨c, hcancelled, hiff⟩ := exec_isCancelled w m
  have huncancelled : ¬(watching && c) = true := by
    rw [Bool.and_eq_true, hiff]
    exact fun hboth => hgoesOn.uncancelled hboth.1 hboth.2
  have hearly : ¬((deadline.map (· - m.clock)).map fun t => decide (t ≤ 0)).getD false = true := by
    cases hd : deadline with
    | none => simp
    | some d => simpa using hgoesOn.early d hd
  refine ⟨?next, ?ended, ?running, ?turn⟩
  case turn =>
    rw [supervise, exec_bind, hcancelled]
    dsimp only
    rw [if_neg huncancelled, exec_bind, exec_get]
    dsimp only
    rw [if_neg hearly]
    rfl
  case ended => exact fun _ => rfl
  case running => exact fun _ => rfl

theorem exec_supervise_ended (hgoesOn : GoesOn w m deadline watching) {m' : Machine}
    (h : exec (wait p (turn watching deadline m.clock)) w m = (.ok (.ended, p), m')) :
    exec (supervise (n + 1) p timeout deadline watching) w m = (.ok (), m') := by
  obtain ⟨next, hended, -, hturn⟩ := exec_supervise_turn n p timeout hgoesOn
  rw [hturn, exec_bind, h]
  dsimp only
  rw [hended, exec_pure]

theorem exec_supervise_running (hgoesOn : GoesOn w m deadline watching) {m' : Machine}
    (h : exec (wait p (turn watching deadline m.clock)) w m = (.ok (.running, p), m')) :
    exec (supervise (n + 1) p timeout deadline watching) w m =
      exec (supervise n p timeout deadline watching) w m' := by
  obtain ⟨next, -, hrunning, hturn⟩ := exec_supervise_turn n p timeout hgoesOn
  rw [hturn, exec_bind, h]
  dsimp only
  rw [hrunning]

/-- A turn takes time, goes on to no moment after the deadline, and either lasts as long as turns do
or up to the deadline. -/
theorem turn_spec (hgoesOn : GoesOn w m deadline watching) {t : Rat}
    (h : t ∈ turn watching deadline m.clock) :
    0 < t ∧ (∀ d ∈ deadline, m.clock + t ≤ d) ∧ (t = pollInterval ∨ m.clock + t ∈ deadline) := by
  unfold turn at h
  cases deadline with
  | none =>
    cases watching with
    | false => cases h
    | true =>
      obtain rfl : earlier pollInterval pollInterval = t := by simpa using h
      rw [earlier_eq_min, min_self]
      simp [pollInterval_pos]
  | some d =>
    have hearly := hgoesOn.early d rfl
    cases watching with
    | false =>
      obtain rfl : d - m.clock = t := by simpa using h
      simpa using hearly
    | true =>
      obtain rfl : earlier pollInterval (d - m.clock) = t := by simpa using h
      rw [earlier_eq_min]
      obtain hpoll | hpoll := le_total pollInterval (d - m.clock)
      · rw [min_eq_left hpoll]
        refine ⟨pollInterval_pos, ?_, .inl rfl⟩
        rintro _ ⟨⟩
        linarith
      · rw [min_eq_right hpoll]
        simpa using hearly

theorem exists_turn {d : Rat} (hd : d ∈ deadline) (watching : Bool) (now : Rat) :
    ∃ t, t ∈ turn watching deadline now := by
  cases hd
  cases watching
  · exact ⟨_, rfl⟩
  · exact ⟨_, rfl⟩

/-- So many turns last until the command or its time is over. -/
def EnoughTurns (n : Nat) (now finish : Rat) (deadline : Option Rat) : Prop :=
  finish ≤ now + n * pollInterval ∨ ∃ d ∈ deadline, d ≤ now + n * pollInterval

/-- A turn that does not see the command end is not the last one. -/
theorem EnoughTurns.pred {finish t : Rat} (henough : EnoughTurns n m.clock finish deadline)
    (hgoesOn : GoesOn w m deadline watching) (ht : t ∈ turn watching deadline m.clock)
    (hlate : m.clock + t < finish) :
    ∃ k, n = k + 1 ∧ EnoughTurns k (m.clock + t) finish deadline := by
  obtain ⟨hpos, -, hturn⟩ := turn_spec hgoesOn ht
  cases n with
  | zero =>
    obtain hfinish | ⟨d, hd, hle⟩ := henough
    · rw [Nat.cast_zero, zero_mul, add_zero] at hfinish
      linarith
    · have hearly := hgoesOn.early d hd
      rw [Nat.cast_zero, zero_mul, add_zero] at hle
      linarith
  | succ k =>
    refine ⟨k, rfl, ?_⟩
    have hnext : m.clock + (k + 1 : Nat) * pollInterval =
        m.clock + pollInterval + k * pollInterval := by
      push_cast
      ring
    obtain rfl | hdeadline := hturn
    · rwa [EnoughTurns, hnext] at henough
    · have hnonneg : (0 : Rat) ≤ k * pollInterval :=
        mul_nonneg (Nat.cast_nonneg k) pollInterval_pos.le
      exact .inr ⟨_, hdeadline, le_add_of_nonneg_right hnonneg⟩

end Turn

/-! ## Waiting to the end -/

section Supervise

variable {start : Machine} {c : Started} {rest : List Started} {n : Nat} {timeout : Binary64}
  {deadline : Option Rat} {watching : Bool}

/-- A machine on which a command is waited for since a moment. -/
structure Waiting (start m : Machine) (p : Process) (deadline : Option Rat) : Prop where
  frame : start.Frame m
  files : m.files = start.files
  le_clock : start.clock ≤ m.clock
  running : m.clock < p.finish ∨ m.clock = start.clock
  early : ∀ d ∈ deadline, m.clock ≤ d ∨ m.clock = start.clock

structure Supervised (w : World) (start : Machine) (p : Process) (c : Started)
    (rest : List Started) (deadline : Option Rat) (watching : Bool) (e : Ending)
    (signals : List Signal) (m' : Machine) : Prop where
  frame : start.Frame m'
  files : p.MayLeave w start.files m'.files
  report : e = .byItself → p.stopped = false → m'.files = p.leave w start.files
  started : m'.started = { c with signals := signals ++ c.signals } :: rest
  isOver : p.finish ≤ m'.clock ∨ .kill ∈ signals ∨
    (.terminate ∈ signals ∧ p.behaviour.stubborn = false)
  fits : e.Fits w start p.finish deadline watching signals m'.clock
  clock_le : ∀ d ∈ deadline, m'.clock ≤ max d start.clock + gracePeriod

theorem Waiting.clock_le (h : Waiting start m p deadline) : ∀ d ∈ deadline,
    m.clock ≤ max d start.clock := by
  intro d hd
  obtain hle | heq := h.early d hd
  · exact hle.trans (le_max_left _ _)
  · exact heq.le.trans (le_max_right _ _)

theorem Waiting.cancelledBy (h : Waiting start m p deadline) {t : Rat} :
    w.CancelledBy start t ↔ w.CancelledBy m t := by
  rw [World.CancelledBy, World.CancelledBy, h.frame.cancelled]

/-- A note changes nothing about it. -/
theorem Supervised.note {e : Ending} {signals : List Signal} {m' : Machine}
    (h : Supervised w start p c rest deadline watching e signals m')
    (notes : List (Level × String)) :
    Supervised w start p c rest deadline watching e signals { m' with notes := notes } :=
  ⟨⟨h.frame.cancelled, h.frame.catching, h.frame.temporaries, h.frame.pauses, h.frame.printed⟩,
    h.files, h.report, h.started, h.isOver, h.fits, h.clock_le⟩

/-- What is known about a command that is given up while it is waited for. -/
theorem Waiting.supervised_of_ended (h : Waiting start m p deadline) {e : Ending}
    {signals : List Signal} {m' : Machine} (hended : Ended w p c rest m signals m')
    (hfits : e.Fits w start p.finish deadline watching signals m'.clock) (he : e ≠ .byItself) :
    Supervised w start p c rest deadline watching e signals m' := by
  refine ⟨h.frame.trans hended.frame, h.files ▸ hended.files, fun h => absurd h he, hended.started,
    ?_, hfits, fun d hd => ?_⟩
  · obtain hfinish | hkill | hstubborn := hended.isOver
    · exact .inl hfinish
    · exact .inr (.inl hkill)
    · exact .inr (.inr ⟨hended.asked, hstubborn⟩)
  · exact hended.clock_le.trans (add_le_add_left (h.clock_le d hd) _)

/-- Waiting for a command with a number of turns comes to an end. If the command is over before its
time, the wait would come to the same end however late the command would have ended by itself. -/
def ComesToEnd (n : Nat) (w : World) (start m : Machine) (p : Process) (c : Started)
    (rest : List Started) (timeout : Binary64) (deadline : Option Rat) (watching : Bool) : Prop :=
  ∃ e signals m',
    exec (supervise (n + 1) p timeout deadline watching) w m =
      (e.result (.ok ()) p.command timeout, m') ∧
    Supervised w start p c rest deadline watching e signals m' ∧
    (m'.clock < p.finish → ∀ w' q k, w'.cancelAt = w.cancelAt → Outlasts p q →
      EnoughTurns k m.clock q.finish deadline →
      exec (supervise (k + 1) q timeout deadline watching) w' m =
        (e.result (.ok ()) p.command timeout, m'))

theorem cancelledBy_of_cancelAt_eq {w' : World} (h : w'.cancelAt = w.cancelAt) {t : Rat} :
    w'.CancelledBy m t ↔ w.CancelledBy m t := by
  rw [World.CancelledBy, World.CancelledBy, h]

section Turns

variable (hp : p.interruptions = 0) (hm : m.started = c :: rest)
  (hwaiting : Waiting start m p deadline)
include hp hm hwaiting

theorem comesToEnd_of_cancelled (hwatching : watching = true) (hc : w.CancelledBy m m.clock) :
    ComesToEnd n w start m p c rest timeout deadline watching := by
  obtain ⟨signals, m', hgiveUp, hended, hlater⟩ := exec_giveUp (α := Unit) (w := w) hp hm
    (.cancelled p.command)
  refine ⟨.cancelled, signals, m', exec_supervise_cancelled hwatching hc hgiveUp,
    hwaiting.supervised_of_ended hended ⟨hended.asked, hwatching, m.clock, hwaiting.le_clock,
      hended.le_clock, hwaiting.running, hwaiting.cancelledBy.2 hc⟩ (by decide), ?_⟩
  intro hearly w' q k hw' hq _
  have hgiveUp' := hlater hearly w' q hq
  rw [← hq.command] at hgiveUp' ⊢
  exact exec_supervise_cancelled hwatching ((cancelledBy_of_cancelAt_eq hw').2 hc) hgiveUp'

theorem comesToEnd_of_timedOut (huncancelled : watching = true → ¬w.CancelledBy m m.clock)
    {d : Rat} (hd : d ∈ deadline) (hle : d ≤ m.clock) :
    ComesToEnd n w start m p c rest timeout deadline watching := by
  obtain ⟨signals, m', hgiveUp, hended, hlater⟩ := exec_giveUp (α := Unit) (w := w) hp hm
    (.timedOut p.command timeout)
  have hlate : d < p.finish ∨ d ≤ start.clock := by
    obtain hlt | heq := hwaiting.running
    · exact .inl (hle.trans_lt hlt)
    · exact .inr (hle.trans_eq heq)
  refine ⟨.timedOut, signals, m', exec_supervise_timedOut huncancelled hd hle hgiveUp,
    hwaiting.supervised_of_ended hended ⟨hended.asked, d, hd, hle.trans hended.le_clock, hlate⟩
      (by decide), ?_⟩
  intro hearly w' q k hw' hq _
  have huncancelled' : watching = true → ¬w'.CancelledBy m m.clock := by
    rwa [cancelledBy_of_cancelAt_eq hw']
  have hgiveUp' := hlater hearly w' q hq
  rw [← hq.command] at hgiveUp' ⊢
  exact exec_supervise_timedOut huncancelled' hd hle hgiveUp'

theorem comesToEnd_of_inTime (hgoesOn : GoesOn w m deadline watching)
    (hinTime : ∀ t ∈ turn watching deadline m.clock, p.finish ≤ m.clock + t) :
    ComesToEnd n w start m p c rest timeout deadline watching := by
  have hwait := exec_wait_ended (w := w) hp _ hinTime
  have hlater : p.finish ≤ later m.clock p.finish := by
    rw [later_eq_max]
    exact le_max_right _ _
  have honTime : ∀ d ∈ deadline, p.finish ≤ d ∧ start.clock < d := by
    intro d hd
    obtain ⟨t, ht⟩ := exists_turn hd watching m.clock
    exact ⟨(hinTime t ht).trans ((turn_spec hgoesOn ht).2.1 d hd),
      hwaiting.le_clock.trans_lt (hgoesOn.early d hd)⟩
  refine ⟨.byItself, [], _, exec_supervise_ended hgoesOn hwait,
    ⟨hwaiting.frame.later _ _, hwaiting.files ▸ p.mayLeave_ite w m.files, fun _ hstopped => ?_, hm,
      .inl hlater, ⟨⟨hlater, rfl⟩, honTime⟩, fun d hd => ?_⟩,
    fun hearly => absurd hlater hearly.not_ge⟩
  · dsimp only
    rw [hstopped, hwaiting.files]
    rfl
  · have hclock : later m.clock p.finish ≤ max d start.clock := by
      rw [later_eq_max]
      exact max_le (hwaiting.clock_le d hd) ((honTime d hd).1.trans (le_max_left _ _))
    exact hclock.trans (le_add_of_nonneg_right gracePeriod_pos.le)

omit hm in
/-- A turn that the command outlasts leads to the next one. -/
theorem comesToEnd_of_running (hgoesOn : GoesOn w m deadline watching) {t : Rat}
    (ht : t ∈ turn watching deadline m.clock) (hlate : m.clock + t < p.finish)
    (hnext : Waiting start { m with clock := m.clock + t } p deadline →
      ComesToEnd n w start { m with clock := m.clock + t } p c rest timeout deadline watching) :
    ComesToEnd (n + 1) w start m p c rest timeout deadline watching := by
  obtain ⟨hpos, hdeadline, -⟩ := turn_spec hgoesOn ht
  have hwait : ∀ w' (q : Process), q.interruptions = 0 → m.clock + t < q.finish →
      exec (wait q (turn watching deadline m.clock)) w' m =
        (.ok (.running, q), { m with clock := m.clock + t }) := by
    intro w' q hq hlate
    rw [Option.mem_def.1 ht]
    exact exec_wait_running hq hlate
  obtain ⟨e, signals, m', hrun, hsupervised, hlater⟩ := hnext ⟨hwaiting.frame.later _ _,
    hwaiting.files, hwaiting.le_clock.trans (le_add_of_nonneg_right hpos.le), .inl hlate,
    fun d hd => .inl (hdeadline d hd)⟩
  refine ⟨e, signals, m', ?_, hsupervised, ?_⟩
  · rw [exec_supervise_running hgoesOn (hwait w p hp hlate), hrun]
  · intro hearly w' q k hw' hq hk
    have hgoesOn' : GoesOn w' m deadline watching :=
      ⟨by rw [cancelledBy_of_cancelAt_eq hw']; exact hgoesOn.uncancelled, hgoesOn.early⟩
    have hlate' : m.clock + t < q.finish := hlate.trans_le hq.finish
    obtain ⟨j, rfl, hj⟩ := hk.pred hgoesOn' ht hlate'
    rw [exec_supervise_running hgoesOn' (hwait w' q hq.interruptions hlate')]
    exact hlater hearly w' q j hw' hq hj

/-- Waiting for a command comes to an end if there are enough turns. -/
theorem exec_supervise (henough : EnoughTurns n m.clock p.finish deadline) :
    ComesToEnd n w start m p c rest timeout deadline watching := by
  induction n using Nat.strong_induction_on generalizing m with
  | _ n ih =>
  by_cases hcancelled : watching = true ∧ w.CancelledBy m m.clock
  · exact comesToEnd_of_cancelled hp hm hwaiting hcancelled.1 hcancelled.2
  have huncancelled : watching = true → ¬w.CancelledBy m m.clock :=
    fun hwatching hc => hcancelled ⟨hwatching, hc⟩
  by_cases hover : ∃ d ∈ deadline, d ≤ m.clock
  · obtain ⟨d, hd, hle⟩ := hover
    exact comesToEnd_of_timedOut hp hm hwaiting huncancelled hd hle
  have hgoesOn : GoesOn w m deadline watching :=
    ⟨huncancelled, fun d hd => not_le.1 fun hle => hover ⟨d, hd, hle⟩⟩
  by_cases hinTime : ∀ t ∈ turn watching deadline m.clock, p.finish ≤ m.clock + t
  · exact comesToEnd_of_inTime hp hm hwaiting hgoesOn hinTime
  · obtain ⟨t, ht, hlate⟩ : ∃ t ∈ turn watching deadline m.clock, m.clock + t < p.finish := by
      simpa using hinTime
    obtain ⟨k, rfl, hk⟩ := henough.pred hgoesOn ht hlate
    have hm' : { m with clock := m.clock + t }.started = c :: rest := hm
    exact comesToEnd_of_running hp hwaiting hgoesOn ht hlate
      fun hnext => ih k (Nat.lt_succ_self k) hm' hnext hk

end Turns
end Supervise

end Run
end ContainerDocs
