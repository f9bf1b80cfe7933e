import ContainerDocs.System.Command
import ContainerDocs.Tool.Lookup

/-!
# Adapters for tools

An adapter knows how to find its tool, how to run it on an image and what the tool's report
contributes to the statistics of the image.

## Main definitions

* `Tool`, `Adapter` — a tool, and an adapter with what it has found so far.
* `Adapter.locate` — whether the tool is there.
* `Adapter.run` — the partial statistics of an image.
* `Adapter.standard` — the five adapters.
-/

namespace ContainerDocs

/-- The tools that images are analyzed with. -/
inductive Tool where
  | runtime | manifest | syft | grype | dive
deriving DecidableEq, Repr

namespace Tool

/-- Whether the tool is run through the container runtime. -/
def usesRuntime : Tool → Bool
  | .runtime | .manifest => true
  | _ => false

def program : Tool → String
  | .runtime => "runtime"
  | .manifest => "manifest"
  | .syft => "syft"
  | .grype => "grype"
  | .dive => "dive"

def adapterName : Tool → String
  | .runtime => "RuntimeAdapter"
  | .manifest => "ManifestAdapter"
  | .syft => "SyftAdapter"
  | .grype => "GrypeAdapter"
  | .dive => "DiveAdapter"

end Tool

/-- The seconds for the two classes of tools: those that look something up and those that scan. -/
structure Timeouts where
  inspect : Binary64 := Binary64.ofInt 30
  scan : Binary64 := Binary64.ofInt 300
deriving DecidableEq

def Timeouts.of (t : Timeouts) (tool : Tool) : Binary64 :=
  if tool.usesRuntime then t.inspect else t.scan

structure Adapter where
  tool : Tool
  timeout : Binary64
  binary : Option String := none
deriving DecidableEq

namespace Adapter

def new (tool : Tool) (timeouts : Timeouts := {}) : Adapter := ⟨tool, timeouts.of tool, none⟩

def standard (timeouts : Timeouts) : List Adapter :=
  [.runtime, .manifest, .syft, .grype, .dive].map (new · timeouts)

def found? (a : Adapter) : Option String := a.binary.filter (!·.isEmpty)

def name (a : Adapter) : String :=
  match a.tool with
  | .runtime => a.found?.getD "runtime"
  | tool => tool.program

def describe (a : Adapter) : String :=
  let binary := match a.binary with | some b => Quoted.quote b | none => "None"
  a.tool.adapterName ++ "(binary=" ++ binary ++ ")"

/-- Looks for the tool: whether it is there, and the adapter with what was found. -/
def locate (a : Adapter) : Run (Bool × Adapter) := do
  if a.tool.usesRuntime then
    let runtime ← Tools.runtime?
    return (runtime.isSome, { a with binary := runtime })
  else
    match ← Tools.lookup? a.tool.program with
    | some (path, _) => return (true, { a with binary := some path })
    | none => return (false, a)

def ready (a : Adapter) : Run Adapter := do
  match a.found? with
  | some _ => return a
  | none => return (← a.locate).2

/-- The program to run; its absence is a failure. -/
def program (a : Adapter) : Run String :=
  match a.found? with
  | some b => return b
  | none =>
    Run.fail (.tool (if a.tool.usesRuntime then .noRuntime else .notFound a.name))

/-- What comes of a report that is unusable. Only one that nests too deep is not reported. -/
def stopOf (e : ReportError) : Stop :=
  match e.flaw with
  | .unreadable (.tooDeep c) => .crash (.nesting (Json.ReadError.tooDeep c).message)
  | _ => .failure (.tool (.report e))

def report {α : Type} (r : Except ReportError α) : Run α := Run.ofExcept (r.mapError stopOf)

/-! ## The socket of the virtual machine -/

/-- What a message calls the type of a JSON value. -/
def typeName : Json → String
  | .null => "NoneType"
  | .bool _ => "bool"
  | .int _ => "int"
  | .float _ => "float"
  | .text _ => "str"
  | .array _ => "list"
  | .object _ => "dict"

def isNothing : Json → Bool
  | .null => true
  | .bool b => !b
  | .int n => n == 0
  | .float x => x.isZero
  | .text t => t.isEmpty
  | .array items => items.isEmpty
  | .object fields => fields.isEmpty

def socketScheme : Text := Text.ofString "unix://"

def socketAddress (path : Text) : Text :=
  if path.startsWith socketScheme then path else socketScheme ++ path

/-- The address of the socket in the description of virtual machines; empty when there is none. -/
def socketIn (v : Json) : Except Crash Text :=
  let missing (v : Json) (method : String) : Except Crash Text :=
    .error (.noAttribute ("'" ++ typeName v ++ "' object has no attribute '" ++ method ++ "'"))
  match v with
  | .array (.object machine :: _) =>
    match (Json.lookup machine (Text.ofString "ConnectionInfo")).getD .null with
    | .object info =>
      match (Json.lookup info (Text.ofString "PodmanSocket")).getD .null with
      | .object socket =>
        match (Json.lookup socket (Text.ofString "Path")).getD (.text []) with
        | .text path =>
          .ok (if path.isEmpty then [] else socketAddress path)
        | other => if isNothing other then .ok [] else missing other "startswith"
      | _ => .ok []
    | other => if isNothing other then .ok [] else missing other "get"
  | _ => .ok []

def socketCommand : List String := ["podman", "machine", "inspect"]

/-- The seconds for the description of virtual machines. -/
def machineTimeout : Binary64 := Binary64.ofInt 10

/-- The address of the socket of the first virtual machine; empty when there is none. -/
def machineSocket : Run Text := do
  let output ←
    try some <$> Run.command socketCommand machineTimeout false none false
    catch
      | .failure (.tool _) => pure none
      | e => throw e
  match output with
  | none => return []
  | some output =>
    match Json.read ((← read).nesting socketCommand) output with
    | .error (.tooDeep c) => Run.crash (.nesting (Json.ReadError.tooDeep c).message)
    | .error _ => return []
    | .ok v => Run.ofExcept ((socketIn v).mapError .crash)

def podmanSocket : Run String := Text.toStringLossy <$> machineSocket

/-- The environment for a tool that talks to the runtime's socket, when it needs one of its own: the
preferred runtime is missing, the other one is there and no socket is set. -/
def socketEnvironment : Run (Option (List (String × String))) := do
  let find := (← read).find?
  let host ← Run.setting? "DOCKER_HOST"
  if (find "docker").isSome || (find "podman").isNone || host.isSome then return none
  let socket ← podmanSocket
  if socket.isEmpty then return none
  return some (("DOCKER_HOST", socket) :: (← read).environment.filter (·.1 ≠ "DOCKER_HOST"))

/-! ## Running the tools -/

def attempt {α : Type} (step : Run α) : Run (Except Stop α) :=
  try .ok <$> step
  catch e => pure (.error e)

def reportPath (n : Nat) : String := "/tmp/dive-output-" ++ toString n ++ ".json"

/-- The number of names that are tried for a report. -/
def maxDraws : Nat := 10000

/-- The number of the first name that nothing has yet, with the tree in which a new empty file has
it, and how many names have been tried since the start of the run. The first number counts the names
that may still be tried. -/
def drawReport (draw : Nat → Nat) (fs : Files) : Nat → Nat → Except Crash (Nat × Files) × Nat
  | 0, tried => (.error (.system 17 "[Errno 17] No usable temporary file name found"), tried)
  | draws + 1, tried =>
    match fs.create [] (reportPath (draw tried)) with
    | .ok files => (.ok (draw tried, files), tried + 1)
    | .error e =>
      if e = .alreadyThere (reportPath (draw tried)) then drawReport draw fs draws (tried + 1)
      else (.error (.system e.number e.message), tried + 1)

def newReport : Run String := do
  let m ← get
  let (drawn, tried) := drawReport (← read).draw m.files maxDraws m.temporaries
  match drawn with
  | .ok (n, files) =>
    set { m with files := files, temporaries := tried }
    return reportPath n
  | .error c =>
    set { m with temporaries := tried }
    Run.crash c

def removeReport (path : String) : Run Unit := do
  match (← get).files.remove [] path with
  | .ok files => modify fun m => { m with files := files }
  | .error _ => Run.debug ("Could not remove " ++ path)

/-- The report that the layer tool writes about an image. The file of the report is gone afterwards,
however the tool ends. -/
def layerReport (a : Adapter) (binary image : String) (watching : Bool) : Run Bytes := do
  let path ← newReport
  let outcome ← attempt do
    let environment ← socketEnvironment
    let _ ← Run.command [binary, image, "--json", path] a.timeout watching environment true
    match (← get).files.read [] path with
    | .ok content => return content
    | .error e => Run.fail (.tool (.unusable ("failed to read dive output: " ++ e.message)))
  removeReport path
  Run.ofExcept outcome

/-- The partial statistics of an image. `watching` tells whether a cancellation ends the tool. -/
def run (a : Adapter) (image : String) (watching : Bool) : Run ImageStats := do
  let binary ← a.program
  match a.tool with
  | .runtime =>
    let command := [binary, "inspect", image]
    let output ← Run.command command a.timeout watching none false
    let found ← report (InspectReport.read ((← read).nesting command) output image binary)
    return found.stats image
  | .manifest =>
    let command := [binary, "manifest", "inspect", image]
    let environment := ("DOCKER_CLI_EXPERIMENTAL", "enabled") ::
      (← read).environment.filter (·.1 ≠ "DOCKER_CLI_EXPERIMENTAL")
    let output ← Run.command command a.timeout watching (some environment) false
    let found ← report (ManifestReport.read ((← read).nesting command) output)
    return found.stats image
  | .syft =>
    let command := [binary, image, "-o", "json"]
    let output ← Run.command command a.timeout watching none false
    let found ← report (PackageReport.read ((← read).nesting command) output)
    return found.stats
  | .grype =>
    let command := [binary, image, "-o", "json"]
    let output ← Run.command command a.timeout watching none false
    let found ← report (VulnerabilityReport.read ((← read).nesting command) output)
    if let some text := found.note? then Run.debug text
    return found.stats ((← read).now (← get).clock)
  | .dive =>
    let content ← layerReport a binary image watching
    let found ← report (LayerReport.read ((← read).nesting [binary, image, "--json"]) content)
    return found.stats

end Adapter
end ContainerDocs
