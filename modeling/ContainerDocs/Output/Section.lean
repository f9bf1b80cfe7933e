import ContainerDocs.Failure
import ContainerDocs.Report.Builtin

/-!
# Sections of a document

A report in Markdown is put into a document between two markers; everything else in the document
stays. A report in another format is a file of its own.

## Main definitions

* `Section.beginMarker`, `Section.endMarker` — the markers of a section.
* `Section.cut?` — the parts of a text before and after a pattern.
* `Section.inject` — the document with a report between its markers.
* `OutputPath.ofReport`, `OutputPath.ofSection` — where a report of its own is written.
-/

namespace ContainerDocs
namespace Section

def defaultName : String := "dock-docs"

def nameOf (name : String) : String := if name.isEmpty then defaultName else name

def beginMarker (name : String) : String := "<!-- BEGIN: " ++ nameOf name ++ " -->"

def endMarker (name : String) : String := "<!-- END: " ++ nameOf name ++ " -->"

/-- The parts before and after the first place of a pattern. -/
def cut? {α : Type} [BEq α] (pattern : List α) : List α → Option (List α × List α)
  | [] => if pattern.isEmpty then some ([], []) else none
  | a :: rest =>
    if pattern.isPrefixOf (a :: rest) then some ([], (a :: rest).drop pattern.length)
    else (cut? pattern rest).map fun (before, after) => (a :: before, after)

def region? (document : Text) (name : String) : Option (Text × Text) := do
  let (before, rest) ← cut? (Text.ofString (beginMarker name)) document
  let (_, after) ← cut? (Text.ofString (endMarker name)) rest
  return (before, after)

def isIn (document : Text) (name : String) : Bool := (region? document name).isSome

/-- A report without the line breaks at its two ends. -/
def body (report : Text) : Text := Blank.trim (· = ('\n' : CodePoint)) report

def written (name : String) (report : Text) : Text :=
  beginMarker name ++ "\n" ++ body report ++ "\n" ++ endMarker name

def inject (document : Text) (name : String) (report : Text) : Except Failure Text :=
  match region? document name with
  | some (before, after) => .ok (before ++ written name report ++ after)
  | none => .error (.noMarkers (nameOf name))

end Section

namespace OutputPath

def defaultDocument : String := "README.md"

def isOwnFile : ReportFormat → Bool
  | .markdown => false
  | .html | .json => true

def extension : ReportFormat → String
  | .markdown => ".md"
  | .html => ".html"
  | .json => ".json"

/-- Where a report is written: the path that was asked for, except that the default one takes the
extension of the format. -/
def ofReport (output : String) (format : ReportFormat) : String :=
  if output = defaultDocument then (Path.splitExtension output).1 ++ extension format else output

/-- Where the report of a section is written: next to the document, under a name with the section's
marker or, without one, its number. -/
def ofSection (output marker : String) (index : Nat) (format : ReportFormat) : String :=
  let stem := (Path.splitExtension (Path.baseName output)).1
  let suffix := if marker.isEmpty then "-section" ++ toString index else "-" ++ marker
  Path.join (Path.parent output) (stem ++ suffix ++ extension format)

end OutputPath
end ContainerDocs
