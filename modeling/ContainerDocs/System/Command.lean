import ContainerDocs.System.Machine

/-!
# Running commands

A command is started, waited for and, when its time is over or a cancellation is asked for, asked
to end and then ended. While a cancellation can come, the wait is cut into short pieces. However a
run of a command ends, the command itself has ended before.

## Main definitions

* `Process` — a command that has been started.
* `Run.wait`, `Run.stop` — waiting for a command and ending it.
* `Run.command` — the output of a command.
-/

namespace ContainerDocs

/-- The seconds after which a wait looks for a cancellation. -/
def pollInterval : Rat := 1 / 10

/-- The seconds that a command has to end by itself once it is asked to. -/
def gracePeriod : Rat := 5

def earlier (s t : Rat) : Rat := if s ≤ t then s else t

def later (s t : Rat) : Rat := if s ≤ t then t else s

/-- The moment at which a time limit that starts at a moment is over. An infinite one is never over,
or at once if it is negative. -/
def deadline? (clock : Rat) (timeout : Binary64) : Option Rat :=
  match timeout with
  | .infinity true => some clock
  | timeout => timeout.toRat?.map (clock + ·)

structure Process where
  command : List String
  behaviour : Behaviour
  /-- When the command ends, unless it is made to end before. -/
  finish : Rat
  /-- The number of waits that an interruption is still to come in. -/
  interruptions : Nat
  /-- Whether the command was made to end before its time. -/
  stopped : Bool := false

inductive Waited where
  | ended
  | running
  /-- A second interruption came. -/
  | interrupted
deriving DecidableEq, Repr

namespace Run

/-- Adds a signal to the command that was started last. -/
def signal (s : Signal) : Run Unit :=
  modify fun m =>
    match m.started with
    | [] => m
    | c :: rest => { m with started := { c with signals := s :: c.signals } :: rest }

def leaveReport (p : Process) : Run Unit := do
  let path := p.command.getLast?.getD ""
  let directory ← place
  let files := (← get).files
  let after :=
    match p.behaviour.report with
    | .none => files
    | .written content => (files.write directory path content).toOption.getD files
    | .removed => (files.remove directory path).toOption.getD files
  modify fun m => { m with files := after }

/-- Waits for a command for some time, or until it ends. An interruption comes before time passes.
-/
def wait (p : Process) (limit : Option Rat) : Run (Waited × Process) := do
  let before := (← get).clock
  let advance (p : Process) : Run (Waited × Process) := do
    let inTime := match limit with | none => true | some w => decide (p.finish ≤ before + w)
    if inTime then
      modify fun m => { m with clock := later before p.finish }
      if !p.stopped then leaveReport p
      return (.ended, p)
    else
      modify fun m => { m with clock := before + limit.getD 0 }
      return (.running, p)
  if p.interruptions = 0 then advance p
  else
    let p := { p with interruptions := p.interruptions - 1 }
    let stopsRun ←
      try
        interrupt
        pure false
      catch _ => pure true
    if stopsRun then return (.interrupted, p) else advance p

/-- Makes a command end: first by asking, then by force. -/
def stop (p : Process) : Run (Waited × Process) := do
  signal .terminate
  let clock := (← get).clock
  let p :=
    if p.behaviour.stubborn || decide (p.finish ≤ clock) then p
    else { p with finish := clock, stopped := true }
  let (result, p) ← wait p (some gracePeriod)
  if result = .running then
    debug ("Process " ++ toString (← get).started.length ++ " did not terminate, killing...")
    signal .kill
    wait { p with finish := (← get).clock, stopped := true } none
  else return (result, p)

/-- Makes a command end whose wait was interrupted, and stops. The command counts as running even if
its time is over, since no wait has seen it end. -/
def stopInterrupted {α : Type} (p : Process) : Run α := do
  let _ ← stop p
  throw .interrupted

def giveUp {α : Type} (p : Process) (f : ToolFailure) : Run α := do
  match ← stop p with
  | (.interrupted, p) => stopInterrupted p
  | _ => throw (.failure (.tool f))

/-- Waits for a command until it ends, its time is over or a cancellation is asked for. The first
argument bounds the number of waits. -/
def supervise : Nat → Process → Binary64 → Option Rat → Bool → Run Unit
  | 0, p, timeout, _, _ => giveUp p (.timedOut p.command timeout)
  | n + 1, p, timeout, deadline, watching => do
    if watching && (← isCancelled) then giveUp p (.cancelled p.command)
    let remaining := deadline.map (· - (← get).clock)
    if (remaining.map fun r => decide (r ≤ 0)).getD false then
      giveUp p (.timedOut p.command timeout)
    let limit :=
      if watching then some (earlier pollInterval (remaining.getD pollInterval)) else remaining
    match ← wait p limit with
    | (.ended, _) => return
    | (.running, p) => supervise n p timeout deadline watching
    | (.interrupted, p) => stopInterrupted p

/-- A number of waits that is enough for a command that has until `limit`. -/
def waits (clock limit : Rat) : Nat := ((limit - clock) / pollInterval).ceil.toNat + 2

/-- Runs a command and gives its output. `watching` tells whether a cancellation ends it;
`combined` tells whether its errors are part of the output. -/
def command (argv : List String) (timeout : Binary64) (watching : Bool)
    (environment : Option (List (String × String))) (combined : Bool) : Run Bytes := do
  debug ("Running: " ++ commandLine argv)
  let before := (← get).started.map (·.command)
  modify fun m => { m with started := ⟨argv, [], environment⟩ :: m.started }
  match (← read).respond before argv with
  | .fails e => fail (.tool (.failed argv (-1) e.message))
  | .runs b =>
    let clock := (← get).clock
    let finish := clock + b.duration
    let deadline := deadline? clock timeout
    let last := match deadline with | some d => earlier finish d | none => finish
    supervise (waits clock last) ⟨argv, b, finish, b.interruptions, false⟩ timeout deadline watching
    let output := if combined then b.output ++ b.errors else b.output
    if b.status ≠ 0 then
      fail (.tool (.failed argv b.status
        (Encoding.decodeLossy (if combined then output else b.errors))))
    debug ("Output (" ++ toString output.length ++ " bytes) from " ++ argv.headD "")
    return output

end Run
end ContainerDocs
