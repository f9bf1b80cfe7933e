import ContainerDocs.Calendar.Reader
import ContainerDocs.Image.Stats
import ContainerDocs.Json.Reader
import ContainerDocs.Schema.Check

/-!
# Reports of the analysis tools

Each analysis tool prints a JSON document. Reading one gives the part of the image statistics that
the tool knows about, or says why the document is not of the tool's form.

## Main definitions

* `ReportError` — why a tool's output is unusable, with its message.
* `InspectReport`, `ManifestReport`, `PackageReport`, `VulnerabilityReport`, `LayerReport` — the
  contents of the documents.
* `InspectReport.read`, … — reading a document.
* `InspectReport.stats`, … — the statistics that a document contributes.
-/

namespace ContainerDocs

/-- What is wrong with a tool's output. -/
inductive ReportFlaw where
  | unreadable (e : Json.ReadError)
  | notAnObject
  | rejected (schema : String) (issues : List Issue)
  | noData (image : String)
deriving DecidableEq, Repr

def ReportFlaw.message : ReportFlaw → String
  | .unreadable e => e.message
  | .notAnObject => "expected a JSON object"
  | .rejected schema issues => Issue.describe schema issues
  | .noData image => "no inspect data returned for image " ++ image

/-- Why the output of a tool is unusable. -/
structure ReportError where
  /-- The name of the tool in messages. -/
  tool : String
  flaw : ReportFlaw
deriving DecidableEq, Repr

def ReportError.wording (tool reason : String) : String :=
  "failed to parse " ++ tool ++ " output: " ++ reason

def ReportError.message (e : ReportError) : String := wording e.tool e.flaw.message

namespace Report

/-- Reads a document and checks it against a schema. `needsObject` asks for an object before the
schema is looked at. -/
def readAs {α : Type} (tool schema : String) (needsObject : Bool) (check : Datum → Check α)
    (nesting : Json.Nesting) (output : Bytes) : Except ReportError α :=
  match Json.read nesting output with
  | .error e => .error ⟨tool, .unreadable e⟩
  | .ok v =>
    let isObject :=
      match v with
      | .object _ => true
      | _ => false
    if needsObject && !isObject then .error ⟨tool, .notAnObject⟩
    else
      match check (Datum.ofJson v) with
      | .ok a => .ok a
      | .issues is => .error ⟨tool, .rejected schema is⟩

end Report

/-! ## The container runtime's inspection -/

/-- What the container runtime says about a local image. -/
structure InspectReport where
  architecture : Text := []
  os : Text := []
  size : Int := 0
  layers : List Text := []
deriving DecidableEq

namespace InspectReport

def layersSchema : Datum → Check (List Text) :=
  Schema.record fun entries => Schema.optional entries "Layers" [] (Schema.listOf Schema.text)

def schema : Datum → Check InspectReport :=
  Schema.record fun entries =>
    InspectReport.mk <$> Schema.optional entries "Architecture" [] Schema.text
      <*> Schema.optional entries "Os" [] Schema.text
      <*> Schema.optional entries "Size" 0 Schema.int
      <*> Schema.optional entries "RootFS" [] layersSchema

/-- The first entry of an inspection of `image` by the runtime `binary`. -/
def read (nesting : Json.Nesting) (output : Bytes) (image binary : String) :
    Except ReportError InspectReport := do
  let tool := binary ++ " inspect"
  match ← Report.readAs tool "list[_InspectEntry]" false (Schema.listOf schema) nesting output with
  | [] => throw ⟨tool, .noData image⟩
  | report :: _ => return report

def stats (image : String) (r : InspectReport) : ImageStats :=
  { imageTag := image
    architecture := r.architecture
    os := r.os
    sizeBytes := r.size
    layers := r.layers.length }

end InspectReport

/-! ## Manifests -/

/-- A platform: an operating system and an architecture, each empty when it is not given. -/
structure Platform where
  os : Text := []
  architecture : Text := []
deriving DecidableEq, Repr

structure ManifestReport where
  platforms : List Platform
deriving DecidableEq

namespace ManifestReport

def platformSchema : Datum → Check Platform :=
  Schema.record fun entries =>
    Platform.mk <$> Schema.optional entries "os" [] Schema.text
      <*> Schema.optional entries "architecture" [] Schema.text

def entrySchema : Datum → Check Platform :=
  Schema.record fun entries => Schema.optional entries "platform" {} platformSchema

def schema : Datum → Check ManifestReport :=
  Schema.record fun entries =>
    (Schema.optional entries "manifests" none
      (Schema.nullable (Schema.listOf entrySchema))).map fun ps => ⟨ps.getD []⟩

def tool : String := "manifest inspect"

def read (nesting : Json.Nesting) (output : Bytes) : Except ReportError ManifestReport :=
  Report.readAs tool "_ManifestIndex" true schema nesting output

/-- Whether a platform says something and is not the unknown one, which attestations have. -/
def isKnown (p : Platform) : Bool :=
  !(p.os.isEmpty && p.architecture.isEmpty) && p.os ≠ Text.ofString "unknown"

def platformText (p : Platform) : Text := p.os ++ Text.ofString "/" ++ p.architecture

def stats (image : String) (r : ManifestReport) : ImageStats :=
  { imageTag := image
    platforms := Ordered.distinct Text.le ((r.platforms.filter isKnown).map platformText) }

end ManifestReport

/-! ## Bills of materials -/

/-- What is installed in an image: its distribution and its packages. -/
structure PackageReport where
  distributionName : Text := []
  distributionVersion : Text := []
  artifacts : List Package := []
deriving DecidableEq

namespace PackageReport

def distributionSchema : Datum → Check (Text × Text) :=
  Schema.record fun entries =>
    Prod.mk <$> Schema.optional entries "name" [] Schema.text
      <*> Schema.optional entries "version" [] Schema.text

/-- An installed package; its type is checked and not used. -/
def artifactSchema : Datum → Check Package :=
  Schema.record fun entries =>
    (fun name version _ => Package.mk name version) <$> Schema.required entries "name" Schema.text
      <*> Schema.optional entries "version" [] Schema.text
      <*> Schema.optional entries "type" [] Schema.text

/-- A bill of materials. -/
def schema : Datum → Check PackageReport :=
  Schema.record fun entries =>
    (fun distribution artifacts =>
        let (name, version) := distribution.getD ([], [])
        ⟨name, version, artifacts.getD []⟩)
      <$> Schema.optional entries "distro" none (Schema.nullable distributionSchema)
      <*> Schema.optional entries "artifacts" none
        (Schema.nullable (Schema.listOf artifactSchema))

/-- The bill of materials that a tool printed. -/
def read (nesting : Json.Nesting) (output : Bytes) : Except ReportError PackageReport :=
  Report.readAs "syft" "_SyftDocument" true schema nesting output

/-- The distribution's name with its version; nothing when it has no name. -/
def distribution (r : PackageReport) : Text :=
  if r.distributionName.isEmpty then []
  else Text.strip (r.distributionName ++ Text.ofString " " ++ r.distributionVersion)

/-- The statistics that a bill of materials contributes. -/
def stats (r : PackageReport) : ImageStats :=
  let packages := Package.sorted r.artifacts
  { distribution := r.distribution
    packages := packages
    packageCount := packages.length }

end PackageReport

/-! ## Vulnerability scans -/

/-- The matches of a vulnerability scan and the text of its time. -/
structure VulnerabilityReport where
  timestamp : Text := []
  found : List Vulnerability := []
deriving DecidableEq

namespace VulnerabilityReport

def descriptorSchema : Datum → Check Text :=
  Schema.record fun entries => Schema.optional entries "timestamp" [] Schema.text

def vulnerabilitySchema : Datum → Check (Text × Text) :=
  Schema.record fun entries =>
    Prod.mk <$> Schema.required entries "id" Schema.text
      <*> Schema.optional entries "severity" (Text.ofString "Unknown") Schema.text

def artifactSchema : Datum → Check (Text × Text) :=
  Schema.record fun entries =>
    Prod.mk <$> Schema.optional entries "name" [] Schema.text
      <*> Schema.optional entries "version" [] Schema.text

def matchSchema : Datum → Check Vulnerability :=
  Schema.record fun entries =>
    (fun (id, severity) (name, version) => Vulnerability.mk id severity name version)
      <$> Schema.required entries "vulnerability" vulnerabilitySchema
      <*> Schema.optional entries "artifact" ([], []) artifactSchema

def schema : Datum → Check VulnerabilityReport :=
  Schema.record fun entries =>
    (fun timestamp found => ⟨timestamp.getD [], found.getD []⟩)
      <$> Schema.optional entries "descriptor" none (Schema.nullable descriptorSchema)
      <*> Schema.optional entries "matches" none (Schema.nullable (Schema.listOf matchSchema))

/-- The vulnerability scan that a tool printed. -/
def read (nesting : Json.Nesting) (output : Bytes) : Except ReportError VulnerabilityReport :=
  Report.readAs "grype" "_GrypeDocument" true schema nesting output

def stats (now : Timestamp) (r : VulnerabilityReport) : ImageStats :=
  { vulnerabilities := Vulnerability.sorted r.found
    severityCounts := Counts.ofList (r.found.map (·.severity))
    scanned := some (Timestamp.ofReport now r.timestamp) }

/-- The remark on a scan whose time is not readable. -/
def note? (r : VulnerabilityReport) : Option String :=
  let normal := Timestamp.normalize r.timestamp
  match Timestamp.read normal with
  | .ok _ => none
  | .error e =>
    if r.timestamp.isEmpty then none
    else
      some ("Failed to parse grype timestamp " ++ String.ofList (Quoted.quoteText r.timestamp) ++
        ": " ++ e.message normal)

end VulnerabilityReport

/-! ## Layer efficiency -/

/-- How well an image uses its layers: the score lies between zero and one. -/
structure LayerReport where
  wastedBytes : Int := 0
  score : Binary64 := Binary64.zero false
deriving DecidableEq

namespace LayerReport

def imageSchema : Datum → Check LayerReport :=
  Schema.record fun entries =>
    LayerReport.mk <$> Schema.optional entries "inefficientBytes" 0 Schema.int
      <*> Schema.optional entries "efficiencyScore" (Binary64.zero false)
        (Schema.floatBetween (Binary64.zero false) (Binary64.ofInt 1))

def schema : Datum → Check LayerReport :=
  Schema.record fun entries => Schema.required entries "image" imageSchema

def read (nesting : Json.Nesting) (content : Bytes) : Except ReportError LayerReport :=
  Report.readAs "dive" "_DiveDocument" true schema nesting content

/-- The statistics that a layer report contributes; the score is scaled to a hundred. -/
def stats (r : LayerReport) : ImageStats :=
  { efficiency := r.score.mul (Binary64.ofInt 100)
    wastedBytes := r.wastedBytes }

end LayerReport
end ContainerDocs
