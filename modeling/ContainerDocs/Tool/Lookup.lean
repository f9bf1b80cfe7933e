import ContainerDocs.System.Machine

/-!
# Finding tools

Tools are looked for among the programs of the system and then in a directory of their own.

## Main definitions

* `Tools.directory` — the directory of the program's own tools.
* `Tools.lookup?` — where a tool is, and which of the two it was found in.
* `Tools.runtime?` — the container runtime.
* `Tools.status` — which tools are there.
-/

namespace ContainerDocs
namespace Tools

def directoryVariable : String := "DOCK_DOCS_INSTALL_DIR"

/-- The container runtimes, the preferred one first. -/
def runtimes : List String := ["docker", "podman"]

/-- The directory in which tools are looked for outside of the programs of the system. -/
def directory : Run String := do
  match ← Run.setting? directoryVariable with
  | some d => return Path.tidy d
  | none => return Path.tidy (Path.join ((← Run.setting? "HOME").getD "/") ".dock-docs/bin")

/-- Where a tool was found. -/
inductive Source where
  | programs | directory
deriving DecidableEq, Repr

def Source.name : Source → String
  | .programs => "PATH"
  | .directory => "install dir"

def lookup? (name : String) : Run (Option (String × Source)) := do
  match (← read).find? name with
  | some path => return some (path, .programs)
  | none =>
    let path := Path.tidy (Path.join (← directory) name)
    if (← get).files.isProgram (← Run.place) path then return some (path, .directory)
    else return none

/-- Where a tool is; a tool that is not there is a failure. -/
def lookup (name : String) : Run (String × Source) := do
  match ← lookup? name with
  | some found => return found
  | none => Run.fail (.tool (.notInstalled name (← directory)))

/-- The first container runtime that is among the programs of the system. -/
def runtime? : Run (Option String) := do
  let find := (← read).find?
  return runtimes.find? fun name => (find name).isSome

structure Status where
  name : String
  found : Option (String × Source)

/-- The status of the container runtime and of the scanners. -/
def status : Run (List Status) := do
  let runtime ← runtime?
  let first : Status := ⟨runtime.getD "docker or podman", runtime.map fun r => (r, .programs)⟩
  let others ← ["syft", "grype", "dive"].mapM fun name => do return Status.mk name (← lookup? name)
  return first :: others

end Tools
end ContainerDocs
