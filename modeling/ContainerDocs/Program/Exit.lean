import ContainerDocs.CommandLine.Reader
import ContainerDocs.Number.Format
import ContainerDocs.Program.Steps
import ContainerDocs.Tool.Lookup

/-!
# Running the program

## Main definitions

* `Listing.templates`, `Listing.tools`, `Listing.version` — the lines about what there is.
* `Action.run` — the steps of an action.
* `Exit` — what the program leaves when it ends.
* `Program.run` — the program on its arguments.
-/

namespace ContainerDocs

/-! ## Listings -/

namespace Listing

def padded (width : Nat) (name : String) : String :=
  name ++ String.ofList (List.replicate (width - name.length) ' ')

def templateLine (b : Builtin) : String :=
  "  " ++ padded 10 b.name ++ "  [" ++ b.format.name ++ "]  " ++ b.description

def templates : List String :=
  ["Available built-in templates:", ""] ++ Builtin.all.map templateLine ++
    ["", "Usage:", "  dock-docs --template <name>",
      "  dock-docs templates export <name> > my-template.tmpl"]

def toolLine (s : Tools.Status) : String :=
  match s.found with
  | some (path, source) => "  [OK] " ++ s.name ++ " (" ++ source.name ++ ": " ++ path ++ ")"
  | none => "  [MISSING] " ++ s.name

def tools (status : List Tools.Status) : List String := "Prerequisites:" :: status.map toolLine

def versionNumber : String := "0.1.0"

/-- The version of the program, and what is known about how it was built. -/
def version : List String :=
  ["dock-docs " ++ versionNumber, "  commit: none", "  built:  unknown"]

end Listing

/-! ## Actions -/

def Run.printLines (lines : List String) : Run Unit := lines.forM fun l => Run.printLine l

def Action.run : Action → Run Unit
  | .help c => Run.printLine c.helpPage
  | .generate o => Generate.run o
  | .listTemplates => Run.printLines Listing.templates
  | .exportTemplate name kind => do Run.print (← Steps.orFail (Report.builtinSource name kind))
  | .validateTemplate path => do
    Steps.validateTemplate path
    Run.printLine ("Template " ++ path ++ " is valid.")
  | .check => do Run.printLines (Listing.tools (← Tools.status))
  | .version => Run.printLines Listing.version

structure Exit where
  status : Nat
  /-- What was printed. -/
  output : Text
  /-- What was printed as notes and errors. -/
  errors : String
  /-- What nothing handled, if anything. -/
  crash : Option Crash
  machine : Machine

namespace Program

def shownNotes (verbose : Bool) (notes : List (Level × String)) : String :=
  let shown := notes.filter fun (level, _) => verbose || level ≠ .debug
  String.join (shown.map fun (level, text) => level.name ++ ": " ++ text ++ "\n")

def lastWords : Stop → String
  | .failure f => "Error: " ++ f.message ++ "\n"
  | .crash _ => ""
  | .aborted => "Aborted!\n"
  | .interrupted => "\nAborted!\n"

def exit (verbose : Bool) (result : Except Stop Unit) (m : Machine) : Exit :=
  let notes := shownNotes verbose m.notes.reverse
  let output := m.printed.reverse.flatten
  match result with
  | .ok _ => ⟨0, output, notes, none, m⟩
  | .error reason =>
    let crash :=
      match reason with
      | .crash c => some c
      | _ => none
    ⟨1, output, notes ++ lastWords reason, crash, m⟩

/-- The program on its arguments. Wrong arguments end it before anything else. -/
def run (arguments : List String) (w : World) (m : Machine) : Exit :=
  match CommandLine.read arguments with
  | .error e => ⟨2, [], e.message, none, m⟩
  | .ok call =>
    let (result, m) := (call.action.run w).run m
    exit call.verbose result m

end Program
end ContainerDocs
