import ContainerDocs.Report.Builtin
import ContainerDocs.System.Path
import ContainerDocs.Text.LetterCase

/-!
# Choosing a template

A template is chosen by the name of a built-in one or by the path of a file; a path counts more
than a name.

## Main definitions

* `Selection` — the chosen template.
* `Selection.format` — what the report is written in.
* `Selection.ofArgument`, `Selection.resolve` — the choice from the command line and from a
  configuration.
-/

namespace ContainerDocs

/-- Which template is used. Neither a name nor a path stands for the default template; an empty text
counts like none. -/
structure Selection where
  name : Option String := none
  path : Option String := none
deriving DecidableEq, Repr

def ReportFormat.ofPath (path : String) : ReportFormat :=
  let extension := LetterCase.lowerString (Path.splitExtension path).2
  if extension = ".html" ∨ extension = ".htm" then .html
  else if extension = ".json" then .json
  else .markdown

namespace Selection

def filled (s : Option String) : Option String := s.filter (!·.isEmpty)

/-- The path of the chosen file, when a file is chosen. -/
def file? (s : Selection) : Option String := filled s.path

/-- The name of the chosen built-in template, when no file is chosen. -/
def builtinName (s : Selection) : String := (filled s.name).getD Builtin.defaultName

/-- What a message calls the chosen template. -/
def origin (s : Selection) : String := s.file?.getD s.builtinName

def format (s : Selection) : ReportFormat :=
  match s.file? with
  | some path => .ofPath path
  | none => ((Builtin.find? s.builtinName).map (·.format)).getD .markdown

/-- The choice that an argument stands for: a text with a slash or the ending `.tmpl` is a path,
other texts are names. -/
def ofArgument (value : Option String) : Selection :=
  match filled value with
  | none => {}
  | some s =>
    if s.toList.contains '/' || ".tmpl".toList.isSuffixOf s.toList then { path := some s }
    else { name := some s }

def resolve (argument : Option String) (config : Option Selection) : Selection :=
  match filled argument with
  | some s => ofArgument (some s)
  | none =>
    match config with
    | none => {}
    | some c =>
      match c.file?, filled c.name with
      | some path, _ => { path := some path }
      | none, some name => { name := some name }
      | none, none => {}

def describe (s : Selection) : String :=
  match s.file? with
  | some path => "custom file: " ++ path
  | none => "built-in: " ++ s.builtinName

end Selection
end ContainerDocs
