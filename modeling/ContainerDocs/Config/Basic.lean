import ContainerDocs.Report.Selection
import ContainerDocs.Tool.Adapter

/-!
# Configurations

A configuration describes a document that is put together from sections, each of which is about one
image or compares several.

## Main definitions

* `Config` — a configuration, with its sections `Config.Section`.
* `Config.Image` — an image that a section compares.
* `Config.templateFor` — the template of a section.
* `Config.anchored` — the configuration with its relative paths seen from a directory.
-/

namespace ContainerDocs
namespace Config

inductive Image where
  | bare (tag : String)
  | entry (tag : String) (label : Option String)
deriving DecidableEq, Repr

def Image.tag : Image → String
  | .bare tag => tag
  | .entry tag _ => tag

/-- What an image is called: its label, or its tag when the label is missing or empty. -/
def Image.displayName : Image → String
  | .bare tag => tag
  | .entry tag label => (Selection.filled label).getD tag

def imageType : String := "image"

def comparisonType : String := "comparison"

/-- A section of a document. Its type may be one that is not known. -/
structure Section where
  type : String := imageType
  marker : String := ""
  /-- The path of the Dockerfile. -/
  source : Option String := none
  /-- The image that is analyzed. -/
  tag : Option String := none
  /-- The images that are compared. -/
  images : List Image := []
  template : Option Selection := none
deriving DecidableEq, Repr

def defaultSource : String := "Dockerfile"

/-- The path of a section's Dockerfile, seen from a directory when none is given. -/
def Section.sourceFor (s : Section) (directory : String) : String :=
  (Selection.filled s.source).getD (Path.join directory defaultSource)

end Config

structure Config where
  output : String := "README.md"
  badgeUrl : String := ""
  template : Option Selection := none
  timeouts : Timeouts := {}
  sections : List Config.Section := []
deriving DecidableEq

namespace Config

/-- The template of a section: its own one if that chooses anything, otherwise the one of the
configuration. -/
def templateFor (c : Config) (s : Section) : Option Selection :=
  match s.template with
  | some t =>
    if (t.file?.isSome || (Selection.filled t.name).isSome) then some t else c.template
  | none => c.template

/-! ## Relative paths -/

/-- A path as an absolute one, seen from a directory; an absolute path is left as it is. -/
def anchor (directory path : String) : String :=
  if Path.isAbsolute path then path else Path.absolute directory path

def anchorFilled (directory : String) (path : Option String) : Option String :=
  path.map fun p => if p.isEmpty then p else anchor directory p

def anchorTemplate (directory : String) (t : Selection) : Selection :=
  { t with path := anchorFilled directory t.path }

def Section.anchored (directory : String) (s : Section) : Section :=
  { s with
    source := anchorFilled directory s.source
    template := s.template.map (anchorTemplate directory) }

def anchored (directory : String) (c : Config) : Config :=
  { c with
    output := anchor directory c.output
    template := c.template.map (anchorTemplate directory)
    sections := c.sections.map (Section.anchored directory) }

end Config
end ContainerDocs
