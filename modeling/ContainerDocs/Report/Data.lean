import ContainerDocs.Documentation.Basic
import ContainerDocs.Image.Stats
import ContainerDocs.Json.Basic

/-!
# Reports as data

The data of a report as a JSON document: every field of the items and of the statistics, in a fixed
order.

## Main definitions

* `Report.imageData` — the data of a report about one image.
* `Report.comparisonData` — the data of a comparison of images.
-/

namespace ContainerDocs
namespace Report

def field (name : String) (value : Json) : Text × Json := (Text.ofString name, value)

def itemData (i : Item) : Json :=
  .object [field "name" (.ofString i.name), field "type" (.ofString i.kind.keyword),
    field "description" (.ofString i.description), field "value" (.ofString i.value),
    field "required" (.bool i.required)]

def packageData (p : Package) : Json :=
  .object [field "name" (.text p.name), field "version" (.text p.version)]

def vulnerabilityData (v : Vulnerability) : Json :=
  .object [field "id" (.text v.id), field "severity" (.text v.severity),
    field "package" (.text v.package), field "version" (.text v.version)]

/-- A text as the name of a field. A half of a surrogate pair has three bytes, none of which is a
character by itself; each is replaced. -/
def nameText (t : Text) : Text :=
  t.flatMap fun c => if c.isHalf then List.replicate 3 (CodePoint.ofNat 0xFFFD) else [c]

/-- The fields for counted texts. Of two texts with the same name the last one counts. -/
def countFields (entries : List (Text × Int)) : List (Text × Json) :=
  entries.foldl (fun fields p => Json.insertField fields (nameText p.1) (.int p.2)) []

def countsData (counts : Counts) : Json := .object (countFields counts.entries)

/-- The fields of statistics. A size that is too large has no printed form. -/
def statsData (s : ImageStats) : Except Size.SizeError (List (Text × Json)) := do
  let size ← s.sizeText
  return [field "image_tag" (.ofString s.imageTag), field "architecture" (.text s.architecture),
    field "os" (.text s.os), field "os_distro" (.text s.distribution),
    field "size_bytes" (.int s.sizeBytes), field "total_layers" (.int s.layers),
    field "supported_architectures" (.array (s.platforms.map .text)),
    field "efficiency_score" (.float s.efficiency), field "wasted_bytes" (.int s.wastedBytes),
    field "total_packages" (.int s.packageCount),
    field "packages" (.array (s.packages.map packageData)),
    field "vulnerabilities" (.array (s.vulnerabilities.map vulnerabilityData)),
    field "vuln_summary" (countsData s.severityCounts),
    field "scan_timestamp" (match s.scanned with | some t => .ofString t.toText | none => .null),
    field "warnings" (.array (s.warnings.map .ofString)),
    field "size_mb" (.ofString size),
    field "total_vulnerabilities" (.int s.vulnerabilities.length)]

def imageData (items : List Item) (stats : Option ImageStats) : Except Size.SizeError Json := do
  let image ←
    match stats with
    | some s => Json.object <$> statsData s
    | none => pure .null
  return .object [field "items" (.array (items.map itemData)), field "image" image]

def comparisonData (images : List (String × ImageStats)) : Except Size.SizeError Json := do
  let objects ← images.mapM fun (name, s) => do
    return Json.object (field "name" (.ofString name) :: (← statsData s))
  return .object [field "images" (.array objects)]

end Report
end ContainerDocs
