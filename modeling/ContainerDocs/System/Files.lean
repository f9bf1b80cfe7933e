import ContainerDocs.System.Path
import ContainerDocs.Text.Encoding
import ContainerDocs.Text.Lines
import ContainerDocs.Text.Quoted

/-!
# Files

A tree of files and directories, written as the list of its places. A place is the list of
components from the root on. Paths are looked up component by component, so that a path through a
missing directory or through a file fails like it does on a real system.

## Main definitions

* `SystemError` — why an operation on a file fails.
* `Files` — the tree.
* `Files.resolve` — the place that a path leads to.
* `Files.read`, `Files.write`, `Files.create`, `Files.remove` — operations on files.
-/

namespace ContainerDocs

structure SystemError where
  number : Nat
  reason : String
  path : String
deriving DecidableEq, Repr

namespace SystemError

def missing (path : String) : SystemError := ⟨2, "No such file or directory", path⟩

/-- The path leads through something that is not a directory. -/
def notDirectory (path : String) : SystemError := ⟨20, "Not a directory", path⟩

def isDirectory (path : String) : SystemError := ⟨21, "Is a directory", path⟩

def alreadyThere (path : String) : SystemError := ⟨17, "File exists", path⟩

def message (e : SystemError) : String :=
  "[Errno " ++ toString e.number ++ "] " ++ e.reason ++ ": " ++ Quoted.quote e.path

end SystemError

/-- The components from the root to a file or a directory. -/
abbrev Place := List String

/-- What stands at a place. -/
inductive Entry where
  | file (content : Bytes) (executable : Bool)
  | directory
deriving DecidableEq

/-- A tree of files and directories. The root is always there. -/
structure Files where
  entries : List (Place × Entry)

namespace Files

def find? (fs : Files) (place : Place) : Option Entry :=
  if place = [] then some .directory else (fs.entries.find? (·.1 = place)).map (·.2)

def put (fs : Files) (place : Place) (entry : Entry) : Files :=
  ⟨(place, entry) :: fs.entries.filter (·.1 ≠ place)⟩

/-- The tree without what was at a place. -/
def erase (fs : Files) (place : Place) : Files := ⟨fs.entries.filter (·.1 ≠ place)⟩

/-- The place that components lead to from a directory. What stands at the last place is not looked
at, except when more than its name is asked for. -/
def walk (fs : Files) (path : String) (here : Place) : List String → Except SystemError Place
  | [] => .ok here
  | piece :: rest =>
    match fs.find? here with
    | none => .error (.missing path)
    | some (.file ..) => .error (.notDirectory path)
    | some .directory =>
      if piece = "" ∨ piece = "." then walk fs path here rest
      else if piece = ".." then walk fs path here.dropLast rest
      else walk fs path (here ++ [piece]) rest

def resolve (fs : Files) (directory : Place) (path : String) : Except SystemError Place :=
  if path.isEmpty then .error (.missing path)
  else walk fs path (if Path.isAbsolute path then [] else directory) (Path.components path)

def read (fs : Files) (directory : Place) (path : String) : Except SystemError Bytes := do
  match fs.find? (← fs.resolve directory path) with
  | some (.file content _) => return content
  | some .directory => throw (.isDirectory path)
  | none => throw (.missing path)

/-- The tree after a content has been written to the file at a path. -/
def write (fs : Files) (directory : Place) (path : String) (content : Bytes) :
    Except SystemError Files := do
  let place ← fs.resolve directory path
  match fs.find? place with
  | some (.file _ executable) => return fs.put place (.file content executable)
  | some .directory => throw (.isDirectory path)
  | none => return fs.put place (.file content false)

/-- The tree with a new empty file at a path. Nothing may be there before. -/
def create (fs : Files) (directory : Place) (path : String) : Except SystemError Files := do
  let place ← fs.resolve directory path
  match fs.find? place with
  | some _ => throw (.alreadyThere path)
  | none => return fs.put place (.file [] false)

/-- The tree after the file at a path has been removed. -/
def remove (fs : Files) (directory : Place) (path : String) : Except SystemError Files := do
  let place ← fs.resolve directory path
  match fs.find? place with
  | some (.file ..) => return fs.erase place
  | some .directory => throw (.isDirectory path)
  | none => throw (.missing path)

def entryAt? (fs : Files) (directory : Place) (path : String) : Option Entry :=
  match fs.resolve directory path with
  | .ok place => fs.find? place
  | .error _ => none

def isFile (fs : Files) (directory : Place) (path : String) : Bool :=
  match fs.entryAt? directory path with
  | some (.file ..) => true
  | _ => false

def isProgram (fs : Files) (directory : Place) (path : String) : Bool :=
  match fs.entryAt? directory path with
  | some (.file _ executable) => executable
  | _ => false

end Files

/-! ## Text files -/

/-- Why the text of a file cannot be read. -/
inductive TextFault where
  | system (e : SystemError)
  | decode (e : Encoding.DecodeError)

def Files.readText (fs : Files) (directory : Place) (path : String) :
    Except TextFault String := do
  match fs.read directory path with
  | .error e => throw (.system e)
  | .ok content =>
    match Encoding.decodeString content with
    | .error e => throw (.decode e)
    | .ok s => return String.ofList (Lines.unify s.toList)

end ContainerDocs
