import ContainerDocs.Number.Format
import ContainerDocs.Text.CodePoint

/-!
# Texts in reports

The forms in which a report shows a text so that it stays inside its place: one cell of a Markdown
table, a piece of code, a badge, or the text of an HTML element.

## Main definitions

* `Cell.plain`, `Cell.code` — a text inside a table cell.
* `Cell.requiredMark`, `Cell.severityMark`, `Cell.badge` — marks for values.
* `Html.escape` — a text inside an HTML element or attribute.
-/

namespace ContainerDocs
namespace Cell

def escape (c : CodePoint) : Text :=
  if c = '|' then "\\|"
  else if c = '\r' then ""
  else if c = '\n' then "<br>"
  else [c]

/-- A text inside a table cell: bars are escaped and line breaks are written as tags. -/
def plain (t : Text) : Text := t.flatMap escape

/-- A text as code inside a table cell, or a hyphen when nothing is left of it. -/
def code (t : Text) : Text :=
  let s := plain t
  if s.isEmpty then "-" else "`" ++ s ++ "`"

def requiredMark (required noSymbols : Bool) : Text :=
  if noSymbols then if required then "Yes" else "No"
  else if required then "✅" else "❌"

def severityMarks : List (String × String) :=
  [("Critical", "🔴 "), ("High", "🟠 "), ("Medium", "🟡 "), ("Low", "🔵 ")]

def badgeColours : List (String × String) :=
  [("Critical", "red"), ("High", "orange"), ("Medium", "yellow"), ("Low", "blue")]

def entry (table : List (String × String)) (other : String) (t : Text) : Text :=
  ((table.find? fun (name, _) => Text.ofString name = t).map (·.2)).getD other

def severityMark (severity : Text) (noSymbols : Bool) : Text :=
  if noSymbols then "" else entry severityMarks "⚪ " severity

/-- A badge with a label and a count; `some` tells whether there is anything to count. -/
def badge (some : Bool) (count label url : Text) : Text :=
  let colour := if some then entry badgeColours "lightgrey" label else Text.ofString "brightgreen"
  let base := Blank.trimRight (· = ('/' : CodePoint)) url
  "![" ++ label ++ "](" ++ base ++ "/" ++ label ++ "-" ++ count ++ "-" ++ colour ++ ")"

end Cell

namespace Html

def escapeCode (c : CodePoint) : Text :=
  if c = '&' then "&amp;"
  else if c = '<' then "&lt;"
  else if c = '>' then "&gt;"
  else if c = '\'' then "&#39;"
  else if c = '"' then "&#34;"
  else [c]

def escape (t : Text) : Text := t.flatMap escapeCode

end Html
end ContainerDocs
