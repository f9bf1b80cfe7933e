import ContainerDocs.Report.Builtin.Html
import ContainerDocs.Report.Builtin.Markdown
import ContainerDocs.Template.Source

/-!
# Built-in templates

The templates that come with the program, by name. Each one has a form for a single image and a form
for a comparison of images.

## Main definitions

* `ReportFormat`, `ReportKind` — what a report is written in and what it is about.
* `Builtin` — a template that comes with the program.
* `Builtin.all`, `Builtin.find?` — the templates in the order of listings, and by name.
-/

namespace ContainerDocs

inductive ReportFormat where
  | markdown | html | json
deriving DecidableEq, Repr

def ReportFormat.name : ReportFormat → String
  | .markdown => "markdown"
  | .html => "html"
  | .json => "json"

inductive ReportKind where
  | image | comparison
deriving DecidableEq, Repr

def ReportKind.ofName? (name : String) : Option ReportKind :=
  if name = "image" then some .image else if name = "comparison" then some .comparison else none

structure Builtin where
  name : String
  format : ReportFormat
  description : String
  image : List Segment
  comparison : List Segment

namespace Builtin

/-- The name of the template that is used when none is chosen. -/
def defaultName : String := "default"

def all : List Builtin :=
  [⟨"default", .markdown, "Configuration table with image analysis",
      Markdown.defaultImage, Markdown.defaultComparison⟩,
    ⟨"minimal", .markdown, "Name, description and default only",
      Markdown.minimalImage, Markdown.minimalComparison⟩,
    ⟨"detailed", .markdown, "Tables per instruction type, badges and full listings",
      Markdown.detailedImage, Markdown.detailedComparison⟩,
    ⟨"compact", .markdown, "One bullet per item, one-line analysis",
      Markdown.compactImage, Markdown.compactComparison⟩,
    ⟨"html", .html, "Standalone HTML page", Html.image, Html.comparison⟩,
    ⟨"json", .json, "Machine-readable JSON document", Html.data, Html.data⟩]

def find? (name : String) : Option Builtin := all.find? (·.name = name)

def segments (b : Builtin) : ReportKind → List Segment
  | .image => b.image
  | .comparison => b.comparison

def source (b : Builtin) (kind : ReportKind) : String := Segment.sourceText (b.segments kind)

end Builtin
end ContainerDocs
