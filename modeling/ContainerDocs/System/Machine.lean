import ContainerDocs.Failure

/-!
# The machine

What the program runs on. The world around it does not change: which programs there are, how
commands behave and what the environment holds. The state changes: files, time, what has been
started, what has been noted and printed.

## Main definitions

* `Behaviour`, `Launch` — what a command does when it is started.
* `World` — the unchanging surroundings.
* `Machine` — the state.
* `Run` — a step of the program; the state stays when the step stops early.
-/

namespace ContainerDocs

/-- What happens to the file that a command writes its report to. -/
inductive ReportEffect where
  | none
  | written (content : Bytes)
  | removed
deriving DecidableEq

structure Behaviour where
  output : Bytes := []
  errors : Bytes := []
  status : Int := 0
  /-- The seconds that the command takes. -/
  duration : Rat := 0
  /-- Whether the command goes on when it is asked to end. -/
  stubborn : Bool := false
  report : ReportEffect := .none
  /-- The number of waits for the command that an interruption comes in. -/
  interruptions : Nat := 0

inductive Launch where
  | runs (b : Behaviour)
  | fails (e : SystemError)

structure World where
  /-- How a command behaves after the commands that were started before it, the last one first. -/
  respond : List (List String) → List String → Launch
  /-- Where a program is found. -/
  find? : String → Option String
  environment : List (String × String)
  /-- The working directory. -/
  directory : String
  /-- When the cancellation is asked for from outside. -/
  cancelAt : Option Rat := none
  /-- The date and time that the system shows when the clock of the machine stands at a time. -/
  now : Rat → Timestamp
  /-- The numbers of the names for temporary files, in the order in which they are tried. -/
  draw : Nat → Nat := id
  /-- How deep the document that a command prints may nest. It depends on how much of the stack is
  in use when the document is read. -/
  nesting : List String → Json.Nesting := fun _ => .usual
  /-- How deep the readers of the text of a configuration go. -/
  limits : String → Yaml.Limits := fun _ => .usual

/-- How important a note is. -/
inductive Level where
  | debug | info | warning
deriving DecidableEq, Repr

def Level.name : Level → String
  | .debug => "DEBUG"
  | .info => "INFO"
  | .warning => "WARNING"

/-- What is sent to a command that should end. -/
inductive Signal where
  | terminate | kill
deriving DecidableEq, Repr

/-- A command that was started: its signals, the last one first, and its environment when it has one
of its own. -/
structure Started where
  command : List String
  signals : List Signal := []
  environment : Option (List (String × String)) := none
deriving DecidableEq

/-- The state of the machine. What is added to over time has its last part first. -/
structure Machine where
  files : Files
  clock : Rat := 0
  started : List Started := []
  notes : List (Level × String) := []
  pauses : List Rat := []
  printed : List Text := []
  /-- Whether a cancellation was asked for by an interruption or by a tool. -/
  cancelled : Bool := false
  /-- Whether an interruption is taken as a wish to cancel. -/
  catching : Bool := false
  /-- The number of names for temporary files that have been tried. -/
  temporaries : Nat := 0

abbrev Run := ReaderT World (ExceptT Stop (StateM Machine))

namespace Run

def fail {α : Type} (f : Failure) : Run α := throw (.failure f)

def crash {α : Type} (c : Crash) : Run α := throw (.crash c)

def ofExcept {α : Type} (r : Except Stop α) : Run α :=
  match r with
  | .ok a => pure a
  | .error e => throw e

def note (level : Level) (text : String) : Run Unit :=
  modify fun m => { m with notes := (level, text) :: m.notes }

def debug (text : String) : Run Unit := note .debug text

/-- Notes what is being done. -/
def info (text : String) : Run Unit := note .info text

def warn (text : String) : Run Unit := note .warning text

/-- Prints a text. A text that has no bytes cannot be printed. -/
def print (text : Text) : Run Unit := do
  match Encoding.encode text with
  | .ok _ => modify fun m => { m with printed := text :: m.printed }
  | .error e => crash (.encode e)

def printLine (text : Text) : Run Unit := print (text ++ "\n")

/-- Lets time pass. -/
def pause (seconds : Rat) : Run Unit :=
  modify fun m => { m with clock := m.clock + seconds, pauses := seconds :: m.pauses }

def isCancelled : Run Bool := do
  let m ← get
  let due := match (← read).cancelAt with | some t => decide (t ≤ m.clock) | none => false
  return m.cancelled || due

/-- Takes an interruption: the first one asks for a cancellation, a further one stops the run. -/
def interrupt : Run Unit := do
  let m ← get
  if m.catching && !m.cancelled then
    warn "Interrupted, stopping analysis tools..."
    modify fun m => { m with cancelled := true }
  else throw .interrupted

/-- A step during which an interruption is taken as a wish to cancel. -/
def catching {α : Type} (step : Run α) : Run α := do
  modify fun m => { m with catching := true, cancelled := false }
  try step finally modify fun m => { m with catching := false }

def setting? (name : String) : Run (Option String) := do
  let found := (← read).environment.find? (·.1 = name)
  return (found.map (·.2)).filter (!·.isEmpty)

def place : Run Place := do
  return (Path.components (← read).directory).filter (!·.isEmpty)

/-- The text of the file at a path, or the system's reason why there is none. -/
def readText (path : String) : Run (Except SystemError String) := do
  match (← get).files.readText (← place) path with
  | .ok s => return .ok s
  | .error (.system e) => return .error e
  | .error (.decode e) => crash (.decode e)

/-- Writes a text to the file at a path. A file that cannot be opened is a failure; a text that
has no bytes leaves the file empty. -/
def writeText (path : String) (text : Text) : Run Unit := do
  let directory ← place
  let put (content : Bytes) : Run Unit := do
    match (← get).files.write directory path content with
    | .ok files => modify fun m => { m with files := files }
    | .error e => fail (.outputUnwritable path e)
  match Encoding.encode text with
  | .ok content => put content
  | .error e =>
    put []
    crash (.encode e)

end Run
end ContainerDocs
