/-!
# Paths

Paths as they are written: components with slashes between them. A path that starts with a slash is
absolute; exactly two slashes at the start are kept apart from one.

## Main definitions

* `Path.join`, `Path.normalize`, `Path.absolute` — putting paths together.
* `Path.parent`, `Path.baseName`, `Path.splitExtension` — taking a path apart.
* `Path.tidy` — a path without empty components and single points.
-/

namespace ContainerDocs
namespace Path

def isAbsolute (p : String) : Bool := p.toList.head? == some '/'

/-- A path as seen from a directory; an absolute path stands for itself. -/
def join (directory p : String) : String :=
  if isAbsolute p then p
  else if directory.isEmpty || directory.toList.getLast? == some '/' then directory ++ p
  else directory ++ "/" ++ p

def pieces : List Char → List (List Char)
  | [] => [[]]
  | c :: rest =>
    if c = '/' then [] :: pieces rest
    else
      match pieces rest with
      | [] => [[c]]
      | piece :: others => (c :: piece) :: others

/-- The slashes that an absolute path starts with. -/
def root (p : String) : String :=
  match p.toList with
  | '/' :: '/' :: '/' :: _ => "/"
  | '/' :: '/' :: _ => "//"
  | '/' :: _ => "/"
  | _ => ""

/-- The components of a path that is gone through from the start; `done` holds the components so
far, the last one first. Two points take away the component before them. -/
def collapse (rooted : Bool) (done : List String) : List String → List String
  | [] => done.reverse
  | piece :: rest =>
    if piece = "" ∨ piece = "." then collapse rooted done rest
    else if piece = ".." then
      match done with
      | [] => collapse rooted (if rooted then [] else [".."]) rest
      | last :: others =>
        if last = ".." then collapse rooted (".." :: done) rest else collapse rooted others rest
    else collapse rooted (piece :: done) rest

def components (p : String) : List String := (pieces p.toList).map String.ofList

/-- The path with its points taken away, as far as that can be told from how it is written. -/
def normalize (p : String) : String :=
  let start := root p
  let s := start ++ "/".intercalate (collapse (!start.isEmpty) [] (components p))
  if s.isEmpty then "." else s

def absolute (directory p : String) : String := normalize (join directory p)

def tidy (p : String) : String :=
  let s := root p ++ "/".intercalate ((components p).filter fun c => c ≠ "" ∧ c ≠ ".")
  if s.isEmpty then "." else s

/-- The characters after the last slash. -/
def baseName (p : String) : String :=
  String.ofList (p.toList.reverse.takeWhile (· != '/')).reverse

/-- The path up to its last slash, without the slashes at its end unless it holds nothing else. -/
def parent (p : String) : String :=
  let head := p.toList.reverse.dropWhile (· != '/')
  let short := head.dropWhile (· == '/')
  String.ofList (if short.isEmpty then head else short).reverse

/-- The path without its extension, and the extension from its point on. Points at the start of the
last component do not start an extension. -/
def splitExtension (p : String) : String × String :=
  let directory := (p.toList.reverse.dropWhile (· != '/')).reverse
  let base := (baseName p).toList
  let points := base.takeWhile (· == '.')
  let name := base.dropWhile (· == '.')
  let after := (name.reverse.takeWhile (· != '.')).reverse
  if after.length = name.length then (p, "")
  else
    let stem := name.take (name.length - after.length - 1)
    (String.ofList (directory ++ points ++ stem), String.ofList ('.' :: after))

end Path
end ContainerDocs
