import ContainerDocs.Program.Exit

/-!
# The program on a real system

Reads the files that the arguments lead to, runs the program on them, prints what it printed and
writes the files that it changed. No other program can be started from here: every tool counts as
missing.
-/

namespace ContainerDocs

/-! ## What an action looks at -/

def Selection.paths (s : Selection) : List String := s.file?.toList

/-- The paths that an action looks at before anything else. -/
def Action.paths : Action → List String
  | .generate o =>
    match Selection.filled o.config with
    | some path => [path]
    | none =>
      let template := Selection.resolve o.template none
      [o.dockerfile, o.output, OutputPath.ofReport o.output template.format] ++ template.paths
  | .validateTemplate path => [path]
  | _ => []

def Config.sectionPaths (o : GenerateOptions) (c : Config) (directory : String) (index : Nat)
    (s : Config.Section) : List String :=
  let template := Selection.resolve o.template (c.templateFor s)
  [s.sourceFor directory, OutputPath.ofSection c.output s.marker index template.format] ++
    template.paths

def Config.paths (o : GenerateOptions) (c : Config) (directory : String) : List String :=
  c.output :: (c.sections.mapIdx (Config.sectionPaths o c directory)).flatten

/-! ## The real system -/

namespace Main

def pathOf (place : Place) : String := "/" ++ "/".intercalate place

/-- The places on the way to a path, the path itself included. -/
def placesTo (directory path : String) : List Place :=
  let parts := Path.components (Path.join directory path)
  (List.range parts.length).map fun n =>
    let front := "/" ++ "/".intercalate (parts.take (n + 1))
    (Path.components (Path.normalize front)).filter (!·.isEmpty)

/-- Files with what stands at a place. What is there and cannot be read counts as a directory. -/
def load (files : Files) (place : Place) : IO Files := do
  try
    let content ← IO.FS.readBinFile (pathOf place)
    return files.put place (.file content.toList false)
  catch
    | .noFileOrDirectory .. => return files
    | _ => return files.put place .directory

/-- Files with what stands at some paths and on the way to them. -/
def loadAll (directory : String) (files : Files) (paths : List String) : IO Files :=
  (paths.flatMap (placesTo directory)).eraseDups.foldlM load files

def environment : IO (List (String × String)) := do
  let found ← ["HOME", "DOCKER_HOST", Tools.directoryVariable].mapM fun name => do
    return (← IO.getEnv name).map fun value => (name, value)
  return found.filterMap id

/-- The surroundings of the program. No tool is found and no command starts. -/
def surroundings (directory : String) : IO World := do
  return {
    respond := fun _ argv => .fails (.missing (argv.headD ""))
    find? := fun _ => none
    environment := ← environment
    directory := directory
    now := fun _ => ⟨⟨1970, 1, 1⟩, 0, 0, 0, 0, some 0⟩ }

def inputs (w : World) (action : Action) : IO Files := do
  let files ← loadAll w.directory ⟨[]⟩ (w.directory :: action.paths)
  match action with
  | .generate o =>
    match Selection.filled o.config with
    | some path =>
      let step : Run (List String) := do
        return Config.paths o (← Config.ofFile path) (← Config.directoryOf path)
      match (step w).run { files := files } with
      | (.ok paths, _) => loadAll w.directory files paths
      | _ => return files
    | none => return files
  | _ => return files

def save (before after : Files) : IO Unit :=
  after.entries.forM fun (place, entry) => do
    match entry with
    | .file content _ =>
      if before.find? place ≠ some entry then
        IO.FS.writeBinFile (pathOf place) ⟨content.toArray⟩
    | .directory => return

end Main
end ContainerDocs

open ContainerDocs in
def main (arguments : List String) : IO UInt32 := do
  let w ← Main.surroundings (← IO.currentDir).toString
  let files ←
    match CommandLine.read arguments with
    | .ok call => Main.inputs w call.action
    | .error _ => pure ⟨[]⟩
  let e := Program.run arguments w { files := files }
  Main.save files e.machine.files
  (← IO.getStdout).write ⟨((Encoding.encode e.output).toOption.getD []).toArray⟩
  (← IO.getStderr).putStr (e.errors ++ (e.crash.map fun c => c.message ++ "\n").getD "")
  return UInt32.ofNat e.status
