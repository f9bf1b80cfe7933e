import ContainerDocs.Failure
import ContainerDocs.Report.Data
import ContainerDocs.Report.Evaluate
import ContainerDocs.Report.Selection
import ContainerDocs.Template.Reader

/-!
# Rendering reports

The text of a report: the chosen template with the data of the report as the values of its names.

## Main definitions

* `Report.template` — the template that a source text stands for.
* `Report.image` — the text of a report about one image.
* `Report.comparison` — the text of a comparison of images.
-/

namespace ContainerDocs
namespace Report

def builtinTemplate (name : String) (kind : ReportKind) : Except Failure Template :=
  match Builtin.find? name with
  | none => .error (.template (.unknown name))
  | some b =>
    match Template.ofSegments? (b.segments kind) with
    | some t => .ok t
    | none => .error (.template (.malformed name 1))

def builtinSource (name kind : String) : Except Failure String :=
  match Builtin.find? name, ReportKind.ofName? kind with
  | none, _ => .error (.template (.unknown name))
  | some _, none => .error (.template (.unknownKind kind))
  | some b, some k => .ok (b.source k)

def template (origin source : String) : Except Failure Template :=
  match Template.parse source.toList with
  | .ok t => .ok t
  | .error line => .error (.template (.malformed origin line))

def stop : Fault → Stop
  | .size e => .crash (.size e)
  | .unsupported what => .crash (.unsupported what)
  | fault => .failure (.template (.unrendered fault.message))

def print (t : Template) (format : ReportFormat) (values : List (String × Value)) :
    Except Stop Text :=
  match t.render (format == .html) values with
  | .ok text => .ok text
  | .error fault => .error (stop fault)

def commonValues (options : ReportOptions) (data : Json) : List (String × Value) :=
  [("options", .options options), ("severities", .texts (Severity.order.map Text.ofString)),
    ("report", .ofJson data)]

def imageValues (d : Documentation) (stats : Option ImageStats) (options : ReportOptions)
    (data : Json) : List (String × Value) :=
  let items (is : List Item) : Value := .list (is.map .item)
  [("items", items d.items), ("args", items (d.ofKind "ARG")), ("envs", items (d.ofKind "ENV")),
    ("labels", items (d.ofKind "LABEL")), ("ports", items (d.ofKind "EXPOSE")),
    ("stats", match stats with | some s => .stats s | none => .null),
    ("image_tag", .ofString ((stats.map (·.imageTag)).getD ""))] ++ commonValues options data

/-- The values for a report about one image, unless a size in it is too large. -/
def imageValues? (d : Documentation) (stats : Option ImageStats) (options : ReportOptions) :
    Except Stop (List (String × Value)) :=
  match imageData d.items stats with
  | .error e => .error (.crash (.size e))
  | .ok data => .ok (imageValues d stats options data)

def image (t : Template) (format : ReportFormat) (d : Documentation) (stats : Option ImageStats)
    (options : ReportOptions) : Except Stop Text := do
  print t format (← imageValues? d stats options)

/-- Images with their names: a label that is not empty, or the image's own tag. -/
def withNames (labels : List String) : List ImageStats → List (String × ImageStats)
  | [] => []
  | s :: rest =>
    let label := labels.headD ""
    (if label.isEmpty then s.imageTag else label, s) :: withNames labels.tail rest

def comparisonValues (images : List (String × ImageStats)) (options : ReportOptions)
    (data : Json) : List (String × Value) :=
  ("images", .list (images.map fun (name, s) =>
    .mapping [(Text.ofString "name", .ofString name), (Text.ofString "stats", .stats s)])) ::
    commonValues options data

def comparison (t : Template) (format : ReportFormat) (images : List ImageStats)
    (labels : List String) (options : ReportOptions) : Except Stop Text :=
  let named := withNames labels images
  match comparisonData named with
  | .error e => .error (.crash (.size e))
  | .ok data => print t format (comparisonValues named options data)

end Report
end ContainerDocs
