import ContainerDocs.Analysis.Pull
import ContainerDocs.Config.Reader
import ContainerDocs.Output.Section
import ContainerDocs.Program.Steps

/-!
# Generating documentation

The program proper: it reads a Dockerfile, analyzes an image if one is named, renders a report and
puts it into a document or into a file of its own. With a configuration it does so for every
section.

## Main definitions

* `GenerateOptions` — what can be asked for.
* `Generate.document` — the report about one Dockerfile.
* `Generate.fromConfig` — the reports of a configuration.
-/

namespace ContainerDocs

structure GenerateOptions where
  dockerfile : String := "./Dockerfile"
  output : String := OutputPath.defaultDocument
  /-- Whether everything is printed and nothing is written. -/
  dryRun : Bool := false
  /-- The image that is analyzed; empty for none. -/
  image : String := ""
  template : Option String := none
  /-- The path of a configuration. -/
  config : Option String := none
  ignoreErrors : Bool := false
  strict : Bool := false
  noSymbols : Bool := false
  badgeUrl : Option String := none
  /-- Whether the chosen template is noted. -/
  showTemplate : Bool := false
deriving DecidableEq, Repr

namespace Generate

/-! ## Analysis -/

def giveUpIfCancelled : Run Unit := do
  if ← Run.isCancelled then throw .aborted

def analyze (o : GenerateOptions) (timeouts : Timeouts) (image : String) :
    Run (Option ImageStats) := do
  let ready ← Pull.ensureAll timeouts.scan o.ignoreErrors [image]
  if ready.isEmpty then return none
  else
    Run.info ("Analyzing image: " ++ image ++ " ...")
    let stats ← Analysis.analyze image (Analysis.standardProbes timeouts true) true none
    giveUpIfCancelled
    Steps.orFail (Analysis.checkStrict o.strict [stats])
    return some stats

def noteTemplate (o : GenerateOptions) (s : Selection) (type : String) : Run Unit := do
  if o.showTemplate then
    Run.info
      ("Template: " ++ s.describe ++ " (type: " ++ type ++ ", format: " ++ s.format.name ++ ")")

/-! ## One Dockerfile -/

def readDocument? (path : String) : Run (Option String) := do
  match ← Run.readText path with
  | .ok content => return some content
  | .error e =>
    if e = .missing path then return none else Run.fail (.outputUnreadable path e)

def writeReport (path : String) (report : Text) : Run Unit := do
  Run.writeText path report
  Run.info ("Wrote " ++ path)

def updateDocument (path : String) (content : Text) : Run Unit := do
  Run.writeText path content
  Run.info ("Updated " ++ path)

/-- Puts a report between the markers of a document. Without a document or markers it is printed. -/
def intoDocument (path : String) (report : Text) : Run Unit := do
  match ← readDocument? path with
  | none =>
    Run.warn ("Output file " ++ path ++ " does not exist, printing to stdout")
    Run.printLine report
  | some content =>
    match Section.inject (Text.ofString content) "" report with
    | .error f =>
      Run.warn ("Injection failed (" ++ f.message ++ "), printing to stdout")
      Run.printLine report
    | .ok content => updateDocument path content

def document (o : GenerateOptions) : Run Unit := do
  let d ← Steps.documentation o.dockerfile
  let stats ←
    if o.image.isEmpty then pure none else Run.catching (analyze o {} o.image)
  let selection := Selection.resolve o.template none
  noteTemplate o selection Config.imageType
  let report ← Steps.imageReport d stats ⟨o.noSymbols, o.badgeUrl.getD ""⟩ selection
  if o.dryRun then Run.printLine report
  else if OutputPath.isOwnFile selection.format then
    writeReport (OutputPath.ofReport o.output selection.format) report
  else intoDocument o.output report

/-! ## A configuration -/

def imageSection (o : GenerateOptions) (c : Config) (directory : String) (s : Config.Section)
    (selection : Selection) (options : ReportOptions) : Run Text := do
  let d ← Steps.documentation (s.sourceFor directory)
  let stats ←
    match Selection.filled s.tag with
    | some tag => analyze o c.timeouts tag
    | none => pure none
  Steps.imageReport d stats options selection

/-- The report of a section that compares images, unless there is nothing to compare. Images that
are not there are left out. -/
def comparisonSection (o : GenerateOptions) (c : Config) (index : Nat) (s : Config.Section)
    (selection : Selection) (options : ReportOptions) : Run (Option Text) := do
  if s.images.isEmpty then
    Run.warn ("Section " ++ toString index ++ " has no images to compare, skipping")
    return none
  else
    let ready ← Pull.ensureAll c.timeouts.scan o.ignoreErrors (s.images.map (·.tag))
    let images := s.images.filter fun i => ready.contains i.tag
    if images.isEmpty then return none
    else
      let tags := images.map (·.tag)
      Run.info ("Analyzing comparison: " ++ ", ".intercalate tags ++ " ...")
      let probes := Analysis.standardProbes c.timeouts true
      let stats ← Analysis.compare (tags.map fun tag => (tag, probes)) true
      giveUpIfCancelled
      Steps.orFail (Analysis.checkStrict o.strict stats)
      return some (← Steps.comparisonReport stats (images.map (·.displayName)) options selection)

def sectionReport (o : GenerateOptions) (c : Config) (directory : String) (index : Nat)
    (s : Config.Section) (selection : Selection) (options : ReportOptions) :
    Run (Option Text) := do
  if s.type = Config.imageType then
    return some (← imageSection o c directory s selection options)
  else if s.type = Config.comparisonType then
    comparisonSection o c index s selection options
  else
    Run.warn ("Unknown section type " ++ Quoted.quote s.type ++ ", skipping")
    return none

def ownFile (o : GenerateOptions) (path : String) (report : Text) : Run Unit := do
  if o.dryRun then
    Run.printLine ("--- " ++ path ++ " ---")
    Run.printLine report
  else writeReport path report

/-- The content of a document that has been read before or is read now. -/
def contentOf (path : String) (content : Option Text) : Run Text := do
  match content with
  | some text => return text
  | none =>
    match ← Run.readText path with
    | .ok text => return Text.ofString text
    | .error e => Run.fail (.outputUnreadable path e)

/-- Puts a report between the markers of a section. Without the markers the document stays. -/
def intoSection (marker : String) (content report : Text) : Run Text := do
  match Section.inject content marker report with
  | .ok content => return content
  | .error f =>
    Run.warn f.message
    return content

/-- Goes through sections from a number on. `content` is the document as far as it has been put
together. -/
def sections (o : GenerateOptions) (c : Config) (directory : String) (options : ReportOptions)
    (index : Nat) (content : Option Text) : List Config.Section → Run (Option Text)
  | [] => return content
  | s :: rest => do
    let selection := Selection.resolve o.template (c.templateFor s)
    noteTemplate o selection s.type
    let content ←
      match ← sectionReport o c directory index s selection options with
      | none => pure content
      | some report =>
        if OutputPath.isOwnFile selection.format then do
          ownFile o (OutputPath.ofSection c.output s.marker index selection.format) report
          pure content
        else some <$> (do intoSection s.marker (← contentOf c.output content) report)
    sections o c directory options (index + 1) content rest

def fromConfig (o : GenerateOptions) (path : String) : Run Unit := do
  Run.info ("Using config file: " ++ path)
  let c ← Config.ofFile path
  let directory ← Config.directoryOf path
  let options : ReportOptions := ⟨o.noSymbols, o.badgeUrl.getD c.badgeUrl⟩
  match ← Run.catching (sections o c directory options 0 none c.sections) with
  | none => return
  | some content =>
    if o.dryRun then Run.printLine content else updateDocument c.output content

/-- Generates documentation from a configuration, if one is named, or else from a Dockerfile. -/
def run (o : GenerateOptions) : Run Unit :=
  match Selection.filled o.config with
  | some path => fromConfig o path
  | none => document o

end Generate
end ContainerDocs
