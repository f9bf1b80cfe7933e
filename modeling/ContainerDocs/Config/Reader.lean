import ContainerDocs.Config.Basic
import ContainerDocs.Yaml.Value

/-!
# Reading configurations

## Main definitions

* `Config.ofDatum` — the configuration that a mapping describes.
* `Config.parse` — the configuration that a text describes.
* `Config.ofFile` — the configuration in a file.
-/

namespace ContainerDocs
namespace Config

/-! ## The schema -/

def templateOf (entries : List (Datum × Datum)) : Check Selection :=
  (fun name path => ⟨name, path⟩) <$>
    Schema.optional entries "name" none (Schema.nullable Schema.string) <*>
    Schema.optional entries "path" none (Schema.nullable Schema.string)

/-- The times that tools have; they are above zero. -/
def timeoutsOf (entries : List (Datum × Datum)) : Check Timeouts :=
  let above := Schema.floatAbove (Binary64.zero false)
  (fun inspect scan => ⟨inspect, scan⟩) <$>
    Schema.optional entries "inspect" ({} : Timeouts).inspect above <*>
    Schema.optional entries "scan" ({} : Timeouts).scan above

def entryOf (entries : List (Datum × Datum)) : Check Image :=
  (fun tag label => .entry tag label) <$>
    Schema.required entries "tag" Schema.string <*>
    Schema.optional entries "label" none (Schema.nullable Schema.string)

/-- An image as an entry or as a bare tag; what is neither has the issues of both. -/
def imageOf (d : Datum) : Check Image :=
  match Schema.record entryOf d, Schema.string d with
  | .ok image, _ => .ok image
  | .issues _, .ok tag => .ok (.bare tag)
  | .issues is, .issues js =>
    match (Check.issues is : Check Image).at_ (.field "ImageEntry"),
      (Check.issues js : Check Image).at_ (.field "str") with
    | .issues is, .issues js => .issues (is ++ js)
    | check, _ => check

def sectionOf (entries : List (Datum × Datum)) : Check Section :=
  (fun type marker source tag images template => ⟨type, marker, source, tag, images, template⟩) <$>
    Schema.optional entries "type" imageType Schema.string <*>
    Schema.optional entries "marker" "" Schema.string <*>
    Schema.optional entries "source" none (Schema.nullable Schema.string) <*>
    Schema.optional entries "tag" none (Schema.nullable Schema.string) <*>
    Schema.optional entries "images" [] (Schema.listOf imageOf) <*>
    Schema.optional entries "template" none (Schema.nullable (Schema.record templateOf))

/-- The sections; what stands for nothing stands for none of them. -/
def sectionsOf (d : Datum) : Check (List Section) :=
  if d.isEmpty then .ok [] else Schema.listOf (Schema.record sectionOf) d

def ofEntries (entries : List (Datum × Datum)) : Check Config :=
  let empty : Config := {}
  (fun output badgeUrl template timeouts sections =>
    ⟨output, badgeUrl, template, timeouts, sections⟩) <$>
    Schema.optional entries "output" empty.output Schema.string <*>
    Schema.optional entries "badge_base_url" empty.badgeUrl Schema.string <*>
    Schema.optional entries "template" none (Schema.nullable (Schema.record templateOf)) <*>
    Schema.optional entries "timeouts" empty.timeouts (Schema.record timeoutsOf) <*>
    Schema.optional entries "sections" [] sectionsOf

/-- The configuration that a value describes. What stands for nothing is the empty configuration. -/
def ofDatum (d : Datum) : Except ConfigFailure Config :=
  let entries? : Option (List (Datum × Datum)) :=
    match d with
    | .mapping entries => some entries
    | d => if d.isEmpty then some [] else none
  match entries? with
  | none => .error .notMapping
  | some entries =>
    match ofEntries entries with
    | .ok c => .ok c
    | .issues is => .error (.rejected is)

/-! ## Texts and files -/

/-- The depth to which the schema looks at a value: entries in a list in an entry in a list in an
entry. -/
def depth : Nat := 8

/-- The configuration that a text describes. Its relative paths are seen from a directory, unless
that is empty. -/
def parse (limits : Yaml.Limits) (text directory : String) : Except Stop Config :=
  match Yaml.read limits depth text with
  | .error (.malformed p) => .error (.failure (.config (.malformed p)))
  | .error (.value f) => .error (.crash (.scalar f))
  | .error .outOfRange => .error (.crash (.size .factor))
  | .error .mappingAsMoment =>
    .error (.crash (.unsupported "expected string or bytes-like object, got 'list'"))
  | .error .tooDeep => .error (.crash (.nesting "maximum recursion depth exceeded"))
  | .ok d =>
    match ofDatum d with
    | .error f => .error (.failure (.config f))
    | .ok c => .ok (if directory.isEmpty then c else c.anchored directory)

def directoryOf (path : String) : Run String := do
  return Path.parent (Path.absolute (← read).directory path)

/-- The configuration in the file at a path, with its relative paths seen from the directory of the
file. -/
def ofFile (path : String) : Run Config := do
  match ← Run.readText path with
  | .error e => Run.fail (.config (.unreadable path e))
  | .ok text =>
    let limits := (← read).limits text
    Run.ofExcept (parse limits text (← directoryOf path))

end Config
end ContainerDocs
