import ContainerDocs.Report.Builtin.Parts

/-!
# Built-in HTML and JSON templates

The templates that print a page of its own, and the ones that print the report as data.

## Main definitions

* `Html.image`, `Html.comparison` — the pages.
* `Html.data` — the report as data.
-/

namespace ContainerDocs
namespace Html

open Parts

/-- The rules for the look of a page: what they are about, and what they say. -/
def styles : List (String × String) :=
  [("body", "font-family: -apple-system, \"Segoe UI\", Helvetica, Arial, sans-serif; " ++
     "margin: 2rem; color: #24292f;"),
    ("table", "border-collapse: collapse; margin: 1rem 0;"),
    ("th, td", "border: 1px solid #d0d7de; padding: 6px 13px; text-align: left;"),
    ("th", "background: #f6f8fa;"),
    ("code", "background: #eff1f3; padding: 0.1em 0.3em; border-radius: 4px;"),
    (".sev-Critical", "color: #b60205; font-weight: bold;"),
    (".sev-High", "color: #d93f0b;"),
    (".sev-Medium", "color: #b08800;"),
    (".sev-Low", "color: #0366d6;"),
    (".warning", "color: #9a6700;")]

def styleSheet : String :=
  String.join (styles.map fun (about, rules) => about ++ " \x7b " ++ rules ++ " \x7d\n")

/-- The start of a page, up to the body. -/
def head : List Segment :=
  [.text "<!DOCTYPE html>\n<html lang=\"en\">\n<head>\n<meta charset=\"utf-8\">\n<title>",
    out (.ident "title"),
    .text ("</title>\n<style>\n" ++ styleSheet ++ "</style>\n</head>\n<body>\n")]

def headings (names : List String) : String :=
  String.join (names.map fun name => "<th>" ++ name ++ "</th>")

def tableHead (names : List String) : String :=
  "\n<table>\n<thead><tr>" ++ headings names ++ "</tr></thead>\n<tbody>\n"

/-- The title of a page, given to the variable `title`. -/
def title (s : String) : Segment :=
  tag (.set (.one "title") (.literal (.text .single (Text.ofString s))))

def items : List Segment :=
  cutChoice (.ident "items")
    ([Segment.text (tableHead ["Name", "Type", "Description", "Default", "Required"])] ++
      cutLoop "item" (.ident "items")
        ([.text "\n<tr><td><code>", out (field "item" "name"), .text "</code></td><td>",
          out (field "item" "type"), .text "</td><td>", out (field "item" "description"),
          .text "</td><td>"] ++
          Parts.cond (field "item" "value")
            [.text "<code>", out (field "item" "value"), .text "</code>"] ++
          [.text "</td><td>",
            out (.choice (field "item" "required") (.quoted "Yes") (.quoted "No")),
            .text "</td></tr>\n"]) ++
      [Segment.text "\n</tbody>\n</table>\n"])
    [.text "\n<p><em>No documented configuration found.</em></p>\n"]

def line (name : String) (value : List Segment) : List Segment :=
  .text ("<tr><th>" ++ name ++ "</th><td>") :: value ++ [Segment.text "</td></tr>\n"]

def optionalLine (name fieldName : String) (value : Expr) : List Segment :=
  cutCond (field "stats" fieldName)
    (.text "\n" :: line name [out value])

def metrics : List Segment :=
  [Segment.text "<table>\n<tbody>\n"] ++ line "Size" [out (field "stats" "size_mb")] ++
  line "Architecture"
    [out (orHyphen (field "stats" "architecture")), .text "/",
     out (orHyphen (field "stats" "os"))] ++
  optionalLine "Platforms" "supported_architectures"
    ((field "stats" "supported_architectures").pipe "join" [.quoted ", "]) ++
  [Segment.text "\n"] ++ optionalLine "Base OS" "os_distro" (field "stats" "os_distro") ++
  [Segment.text "\n"] ++
  line "Efficiency"
    [out (oneDigit (field "stats" "efficiency_score")), .text "% (",
      out (field "stats" "wasted_mb"), .text " wasted)"] ++
  line "Total Layers" [out (field "stats" "total_layers")] ++
  line "Total Packages" [out (field "stats" "total_packages")] ++
  [Segment.text "</tbody>\n</table>\n"]

def securitySummary : List Segment :=
  [Segment.text "<h3>Security Summary</h3>\n<p>\n"] ++
  cutLoop "severity" (.ident "severities")
    ([.text "\n<span class=\"sev-", out (.ident "severity"), .text "\">", out (.ident "severity"),
      .text ": ", out ((Expr.ident "stats").send "vuln_count" [.ident "severity"]),
      .text "</span>"] ++
      Parts.cond (.not (field "loop" "last")) [.text " | "] ++ [Segment.text "\n"]) ++
  [Segment.text "\n</p>\n"]

def vulnerabilities : List Segment :=
  cutCond (field "stats" "vulnerabilities")
    ([Segment.text (tableHead ["ID", "Severity", "Package", "Version"])] ++
      cutLoop "vuln" (field "stats" "vulnerabilities")
        [.text "\n<tr><td>", out (field "vuln" "id"), .text "</td><td class=\"sev-",
          out (field "vuln" "severity"), .text "\">", out (field "vuln" "severity"),
          .text "</td><td>", out (field "vuln" "package"), .text "</td><td>",
          out (field "vuln" "version"), .text "</td></tr>\n"] ++
      [Segment.text "\n</tbody>\n</table>\n"])

def warnings : List Segment :=
  cutCond (field "stats" "warnings")
    ([Segment.text "\n<ul class=\"warning\">\n"] ++
      cutLoop "warning" (field "stats" "warnings")
        [.text "\n<li>", out (.ident "warning"), .text "</li>\n"] ++ [Segment.text "\n</ul>\n"])

def foot : Segment := .text "\n</body>\n</html>\n"

/-- A page about the configuration and the analysis of one image. -/
def image : List Segment :=
  title "Docker Image Documentation" :: head ++
  [Segment.text "<h1>Docker Image Documentation</h1>\n<h2>Configuration</h2>\n"] ++ items ++
  [Segment.text "\n"] ++
  cutCond (.ident "stats")
    ([.text "\n<h2>Docker Image Analysis (", out (field "stats" "image_tag"), .text ")</h2>\n"] ++
      metrics ++ securitySummary ++ vulnerabilities ++ [Segment.text "\n"] ++ warnings ++
      [Segment.text "\n"]) ++
  [foot]

def imageLine (name : String) (value : List Segment) : List Segment :=
  .text ("<tr><th>" ++ name ++ "</th>")
    :: loop "image" "images" (.text "<td>" :: value ++ [Segment.text "</td>"]) ++
      [Segment.text "</tr>\n"]

/-- A page with one column for each image. -/
def comparison : List Segment :=
  title "Docker Image Comparison" :: head ++
  [Segment.text "<h1>Docker Image Comparison</h1>\n<table>\n<thead><tr><th>Metric</th>"] ++
  loop "image" "images" [.text "<th>", out (field "image" "name"), .text "</th>"] ++
  [Segment.text "</tr></thead>\n<tbody>\n"] ++
  imageLine "Size" [out (imageField "size_mb")] ++
  imageLine "Architecture"
    [out (orHyphen (imageField "architecture")), .text "/", out (orHyphen (imageField "os"))] ++
  imageLine "Layers" [out (imageField "total_layers")] ++
  imageLine "Efficiency" [out (oneDigit (imageField "efficiency_score")), .text "%"] ++
  imageLine "Packages" [out (imageField "total_packages")] ++
  cutLoop "severity" (.ident "severities")
    ([.text "\n<tr><th class=\"sev-", out (.ident "severity"), .text "\">",
      out (.ident "severity"), .text "</th>"] ++
      loop "image" "images"
        [.text "<td>", out ((field "image" "stats").send "vuln_count" [.ident "severity"]),
          .text "</td>"] ++
      [Segment.text "</tr>\n"]) ++
  [Segment.text "\n</tbody>\n</table>\n</body>\n</html>\n"]

def data : List Segment := [out ((Expr.ident "report").pipe "pretty_json"), .text "\n"]

end Html
end ContainerDocs
