import ContainerDocs.Documentation.MagicComment
import ContainerDocs.Report.Render
import ContainerDocs.System.Machine

/-!
# Steps on files

The steps of the program that read a Dockerfile or a template and print a report.

## Main definitions

* `Steps.documentation` — the documentation of the Dockerfile at a path.
* `Steps.template` — the template that is chosen.
* `Steps.imageReport`, `Steps.comparisonReport` — the text of a report.
-/

namespace ContainerDocs
namespace Steps

def documentation (path : String) : Run Documentation := do
  match ← Run.readText path with
  | .error e => Run.fail (.dockerfile path e)
  | .ok content =>
    let d := Dockerfile.parse content
    d.notes.forM fun n => Run.debug n.message
    (Documentation.notes d.instructions).forM fun n => Run.debug n.message
    let result := d.documentation
    Run.debug ("Resolved " ++ toString result.items.length ++ " documentation items from " ++
      toString d.instructions.length ++ " instructions")
    return result

def orFail {α : Type} (r : Except Failure α) : Run α :=
  match r with
  | .ok a => return a
  | .error f => Run.fail f

/-- The chosen template, for a kind of report. A template from a file serves both kinds. -/
def template (s : Selection) (kind : ReportKind) : Run Template := do
  match s.file? with
  | none => orFail (Report.builtinTemplate s.builtinName kind)
  | some path =>
    match ← Run.readText path with
    | .error e => Run.fail (.template (.unreadable path e))
    | .ok source => orFail (Report.template path source)

def validateTemplate (path : String) : Run Unit := do
  if !(← get).files.isFile (← Run.place) path then Run.fail (.template (.missing path))
  let _ ← template { path := some path } .image

def imageReport (d : Documentation) (stats : Option ImageStats) (options : ReportOptions)
    (s : Selection) : Run Text := do
  let t ← template s .image
  let values ← Run.ofExcept (Report.imageValues? d stats options)
  Run.debug ("Rendering " ++ toString d.items.length ++ " items with template " ++ s.origin)
  Run.ofExcept (Report.print t s.format values)

def comparisonReport (images : List ImageStats) (labels : List String) (options : ReportOptions)
    (s : Selection) : Run Text := do
  let t ← template s .comparison
  Run.ofExcept (Report.comparison t s.format images labels options)

end Steps
end ContainerDocs
