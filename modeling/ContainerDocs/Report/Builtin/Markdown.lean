import ContainerDocs.Report.Builtin.Parts

/-!
# Built-in Markdown templates

The templates that print Markdown: for one image with the configuration of its Dockerfile, and for a
comparison of several images.

## Main definitions

* `Markdown.defaultImage`, `Markdown.minimalImage`, `Markdown.detailedImage`,
  `Markdown.compactImage` — the templates for one image.
* `Markdown.defaultComparison`, `Markdown.minimalComparison`, `Markdown.detailedComparison`,
  `Markdown.compactComparison` — the templates for a comparison.
-/

namespace ContainerDocs
namespace Markdown

open Parts

/-! ## Analysis of one image -/

/-- The symbol of the variable `severity`. -/
def severitySymbol : Expr := (Expr.ident "severity").pipe "severity_icon" [noSymbols]

/-- The number of vulnerabilities of the variable `severity`. -/
def severityCount : Expr := (Expr.ident "stats").send "vuln_count" [.ident "severity"]

/-- A body between all elements of a loop but not after the last one. -/
def unlessLast (body : List Segment) : List Segment :=
  Parts.cond (.not (field "loop" "last")) body

/-- The four cells of the variable `vuln`. -/
def vulnerabilityCells : List Expr :=
  ["id", "severity", "package", "version"].map fun name => (field "vuln" name).pipe "md_cell"

/-- The table of vulnerabilities, which can be folded away. -/
def vulnerabilities (summary : List Segment) (source : Expr) : List Segment :=
  .text "\n\n<details>\n<summary>" :: summary ++
    .text ("</summary>\n\n| ID | Severity | Package | Version |\n" ++
      "|----|----------|---------|---------|\n")
      :: rows "vuln" source vulnerabilityCells ++ [Segment.text "\n\n</details>\n"]

/-- The table of packages, which can be folded away. -/
def packages : List Segment :=
  .text "\n\n<details>\n<summary>Packages (" :: out (field "stats" "total_packages")
    :: .text " total)</summary>\n\n| Package | Version |\n|---------|---------|\n"
    :: rows "pkg" (field "stats" "packages")
      [(field "pkg" "name").pipe "md_cell", (field "pkg" "version").pipe "md_cell"]
    ++ [Segment.text "\n\n</details>\n"]

def metrics : List Segment :=
  [.text "| Metric | Value |\n|--------|-------|\n| Size | ", out (field "stats" "size_mb"),
    .text " |\n| Architecture | ", out (orHyphen (field "stats" "architecture")), .text "/",
    out (orHyphen (field "stats" "os")), .text " |\n"] ++
  cutCond (field "stats" "supported_architectures")
    [.text "\n| Platforms | ",
      out ((field "stats" "supported_architectures").pipe "join" [.quoted ", "]), .text " |\n"] ++
  [Segment.text "\n"] ++
  cutCond (field "stats" "os_distro")
    [.text "\n| Base OS | ", out (field "stats" "os_distro"), .text " |\n"] ++
  [.text "\n| Efficiency | ", out (oneDigit (field "stats" "efficiency_score")), .text "% (",
    out (field "stats" "wasted_mb"), .text " wasted) |\n| Total Layers | ",
    out (field "stats" "total_layers"), .text " |\n| Total Packages | ",
    out (field "stats" "total_packages"), .text " |\n"]

def securitySummary : List Segment :=
  .text "\n### Security Summary\n"
    :: loop "severity" "severities"
      ([out severitySymbol, out (.ident "severity"), .text ": ", out severityCount] ++
        unlessLast [.text " | "]) ++ [Segment.text "\n\n"]

def warnings : List Segment :=
  .text "\n\n> **Note:** some analysis tools failed:\n"
    :: cutLoop "warning" (field "stats" "warnings")
      [.text "\n> - ", out ((Expr.ident "warning").pipe "md_cell"), .text "\n"] ++
      [Segment.text "\n"]

def analysis : List Segment :=
  .text "\n" :: cutCond (.ident "stats")
    ([.text "\n\n## Docker Image Analysis (", out (field "stats" "image_tag"), .text ")\n\n"] ++
      metrics ++ securitySummary ++
      cutCond (field "stats" "vulnerabilities")
        (vulnerabilities
          [.text "Vulnerabilities Details (",
            out ((field "stats" "vulnerabilities").pipe "length"), .text " found)"]
          (field "stats" "vulnerabilities")) ++
      [Segment.text "\n\n"] ++
      cutChoice (field "stats" "packages") packages [.text "\n\n*No packages detected.*\n"] ++
      [Segment.text "\n"] ++ cutCond (field "stats" "warnings") warnings ++ [Segment.text "\n"]) ++
    [Segment.text "\n"]

/-! ## Default templates -/

def requiredMark : Expr := (field "item" "required").pipe "required_mark" [noSymbols]

def itemName : Expr := (field "item" "name").pipe "code"

def itemDescription : Expr := (field "item" "description").pipe "md_cell"

def itemValue : Expr := (field "item" "value").pipe "code"

def defaultImage : List Segment :=
  [.text "## Configuration\n", tag (.ifTag (.ident "items")),
    .text "\n| Name | Type | Description | Default | Required |\n",
    .text "|------|------|-------------|---------|----------|\n"] ++
  rows "item" (.ident "items")
    [itemName, field "item" "type", itemDescription, itemValue, requiredMark] ++
  [.text "\n", cutTag .elseTag, .text "\n*No documented configuration found.*\n", cutTag .endIf,
    .text "\n"] ++ analysis

def metric (name before : String) (value : List Segment) (after : String) : List Segment :=
  .text ("| " ++ name ++ " |")
    :: loop "image" "images" (.text before :: value ++ [Segment.text after]) ++ [Segment.text "\n"]

def imageMetric (name : String) (value : List Segment) : List Segment :=
  metric name " " value " |"

def defaultComparison : List Segment :=
  [Segment.text "## Docker Image Comparison\n\n"] ++
  imageMetric "Metric" [out (field "image" "name")] ++
  (.text "|--------|" :: loop "image" "images" [.text "------|"]) ++ [Segment.text "\n"] ++
  imageMetric "Size" [out (imageField "size_mb")] ++
  imageMetric "Architecture"
    [out (orHyphen (imageField "architecture")), .text "/", out (orHyphen (imageField "os"))] ++
  imageMetric "Layers" [out (imageField "total_layers")] ++
  imageMetric "Efficiency" [out (oneDigit (imageField "efficiency_score")), .text "%"] ++
  imageMetric "Wasted" [out (imageField "wasted_mb")] ++
  imageMetric "Packages" [out (imageField "total_packages")] ++
  cutLoop "severity" (.ident "severities")
    (.text "\n| " :: out severitySymbol :: out (.ident "severity") :: .text " |"
      :: loop "image" "images"
        [.text " ",
          out ((field "image" "stats").send "vuln_count" [.ident "severity"]), .text " |"] ++
        [Segment.text "\n"]) ++
  [Segment.text "\n"]

/-! ## Minimal templates -/

def minimalImage : List Segment :=
  [Segment.text "| Name | Description | Default |\n|------|-------------|---------|\n"] ++
  rows "item" (.ident "items") [itemName, itemDescription, itemValue] ++ [Segment.text "\n"] ++
  cutCond (.ident "stats")
    [.text "\n\n**", out (field "stats" "image_tag"), .text "**: ", out (field "stats" "size_mb"),
      .text ", ", out (field "stats" "total_layers"), .text " layers, ",
      out (field "stats" "total_vulnerabilities"), .text " vulnerabilities\n"] ++
  [Segment.text "\n"]

def minimalComparison : List Segment :=
  [Segment.text "| Image | Size | Vulnerabilities |\n|-------|------|-----------------|\n"] ++
  rows "image" (.ident "images")
    [field "image" "name", imageField "size_mb", imageField "total_vulnerabilities"] ++
  [Segment.text "\n"]

/-! ## Detailed templates -/

/-- The heading and the table of the variable `rows`, when it is not empty. -/
def itemTable : List Segment :=
  [.text "\n", cutTag (.defineTag "item_table" [("title", none), ("rows", none)]), .text "\n"] ++
  cutCond (.ident "rows")
    ([.text "\n\n### ", out (.ident "title"),
      .text "\n\n| Name | Description | Default | Required |\n",
      .text "|------|-------------|---------|----------|\n"] ++
      rows "item" (.ident "rows") [itemName, itemDescription, itemValue, requiredMark] ++
      [Segment.text "\n"]) ++
  [Segment.text "\n", .tag true true .endDefine, .text "\n"]

def itemsOf (title items : String) : Segment :=
  .output true false (.call (.ident "item_table") [.quoted title, .ident items] [])

def firstSeverities : Expr := .slice (.ident "severities") none (some (.number 4)) none

def eachOfFirst (body : List Segment) : List Segment :=
  tag (.forTag (.one "severity") firstSeverities none) :: body ++ [tag .endFor]

def badges : List Segment :=
  cutCond (.and (.ident "stats") (field "options" "badge_base_url"))
    (.text "\n\n"
      :: eachOfFirst
        [out (severityCount.pipe "badge" [.ident "severity", field "options" "badge_base_url"]),
          .text " "] ++ [Segment.text "\n"])

def detailedImage : List Segment :=
  itemTable ++ [Segment.text "# Docker Image Analysis\n"] ++ badges ++
  [Segment.text "\n\n## Configuration\n"] ++
  cutCond (.not (.ident "items")) [.text "\n\n*No documented configuration found.*\n"] ++
  [.text "\n", itemsOf "Build Arguments" "args", .text "\n",
    itemsOf "Environment Variables" "envs", .text "\n", itemsOf "Labels" "labels", .text "\n"] ++
  cutCond (.ident "ports")
    ([Segment.text "\n\n### Exposed Ports\n\n| Port | Description |\n|------|-------------|\n"] ++
      rows "item" (.ident "ports") [itemName, itemDescription] ++ [Segment.text "\n"]) ++
  [Segment.text "\n"] ++ analysis ++ [Segment.text "\n"] ++
  cutCond (.and (.ident "stats") (field "stats" "scan_timestamp"))
    [.text "\n\n*Vulnerability scan: ",
      out (((field "stats" "scan_timestamp").send "strftime"
        [.quoted "%Y-%m-%d %H:%M:%S %Z"]).pipe "trim"),
      .text "*\n"] ++ [Segment.text "\n"]

def detailedComparison : List Segment :=
  defaultComparison ++ [Segment.text "\n"] ++
  cutLoop "image" (.ident "images")
    ([Segment.text "\n"] ++
      cutCond (imageField "vulnerabilities")
        (vulnerabilities
          [out (field "image" "name"), .text ": ", out (imageField "total_vulnerabilities"),
            .text " vulnerabilities"]
          (imageField "vulnerabilities")) ++ [Segment.text "\n"]) ++
  [Segment.text "\n"]

/-! ## Compact templates -/

/-- One bullet for each item, and one line about the image. -/
def compactImage : List Segment :=
  [.tag false true (each "item" "items"), .text "\n- ", out itemName, .text " (",
    out (field "item" "type"), .text ")"] ++
  Parts.cond (field "item" "value") [.text " = ", out itemValue] ++
  Parts.cond (field "item" "required") [.text " **required**"] ++
  Parts.cond (field "item" "description") [.text ": ", out (field "item" "description")] ++
  [.text "\n", tag .endFor, .text "\n"] ++
  cutCond (.ident "stats")
    ([.text "\n", out (field "stats" "image_tag"), .text ": ", out (field "stats" "size_mb"),
      .text " | ", out (field "stats" "total_layers"), .text " layers | ",
      out (oneDigit (field "stats" "efficiency_score")), .text "% efficient | "] ++
      eachOfFirst
        ([out (.item (.ident "severity") (.number 0)), .text ":", out severityCount] ++
          unlessLast [.text " "]) ++ [Segment.text "\n"]) ++
  [Segment.text "\n"]

def compactComparison : List Segment :=
  [.tag false true (each "image" "images"), .text "\n- **", out (field "image" "name"),
    .text "**: ", out (imageField "size_mb"), .text ", ", out (imageField "total_layers"),
    .text " layers, ", out (imageField "total_vulnerabilities"), .text " vulnerabilities\n",
    tag .endFor, .text "\n"]

end Markdown
end ContainerDocs
