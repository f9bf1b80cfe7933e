import ContainerDocs.Documentation.Basic
import ContainerDocs.Image.Stats
import ContainerDocs.Json.Basic
import ContainerDocs.Text.Quoted

/-!
# Values in templates

What the expressions of a template stand for: simple values, lists and mappings, the records that a
report is made from, and the value of a name that nothing is known about.

## Main definitions

* `ReportOptions` — what can be chosen about the look of a report, apart from its template.
* `Value` — a value.
* `Value.attribute?` — the attributes of records.
* `Value.printed`, `Value.quoted` — how a value is printed, by itself and inside another value.
* `Value.isTrue`, `Value.same` — the truth of a value and equality.
* `Value.toJson`, `Value.ofJson` — values as JSON documents.
-/

namespace ContainerDocs

structure ReportOptions where
  /-- Whether words stand in place of symbols. -/
  noSymbols : Bool := false
  /-- Where badges are served from; empty for no badges. -/
  badgeUrl : String := ""
deriving DecidableEq, Repr

/-- A value in a template. A safe text is markup already. -/
inductive Value where
  | undefined (reason : String)
  | null
  | bool (b : Bool)
  | int (n : Int)
  | float (x : Binary64)
  | text (safe : Bool) (t : Text)
  | list (items : List Value)
  | mapping (entries : List (Text × Value))
  | item (i : Item)
  | stats (s : ImageStats)
  | package (p : Package)
  | vulnerability (v : Vulnerability)
  | options (o : ReportOptions)
  | moment (t : Timestamp)
  | position (index length : Nat)
  | part (name : String)

namespace Value

def plain (t : Text) : Value := .text false t

def ofString (s : String) : Value := .text false (Text.ofString s)

def texts (ts : List Text) : Value := .list (ts.map plain)

def kindName : Value → String
  | .undefined _ => "Undefined"
  | .null => "None"
  | .bool _ => "bool object"
  | .int _ => "int object"
  | .float _ => "float object"
  | .text false _ => "str object"
  | .text true _ => "markupsafe.Markup object"
  | .list _ => "list object"
  | .mapping _ => "dict object"
  | .item _ => "dockdocs.MODELS.documentation.DocItem object"
  | .stats _ => "dockdocs.MODELS.image_stats.ImageStats object"
  | .package _ => "dockdocs.MODELS.image_stats.PackageSummary object"
  | .vulnerability _ => "dockdocs.MODELS.image_stats.Vulnerability object"
  | .options _ => "dockdocs.RENDERERS.renderer.RenderOptions object"
  | .moment _ => "datetime.datetime object"
  | .position .. => "jinja2.runtime.LoopContext object"
  | .part _ => "jinja2.runtime.Macro object"

/-! ## Records -/

def itemFields (i : Item) : List (String × Value) :=
  [("name", ofString i.name), ("type", ofString i.kind.keyword),
    ("description", ofString i.description), ("value", ofString i.value),
    ("required", .bool i.required)]

def packageFields (p : Package) : List (String × Value) :=
  [("name", plain p.name), ("version", plain p.version)]

def vulnerabilityFields (v : Vulnerability) : List (String × Value) :=
  [("id", plain v.id), ("severity", plain v.severity), ("package", plain v.package),
    ("version", plain v.version)]

def statsFields (s : ImageStats) : List (String × Value) :=
  [("image_tag", ofString s.imageTag), ("architecture", plain s.architecture), ("os", plain s.os),
    ("os_distro", plain s.distribution), ("size_bytes", .int s.sizeBytes),
    ("total_layers", .int s.layers), ("supported_architectures", texts s.platforms),
    ("efficiency_score", .float s.efficiency), ("wasted_bytes", .int s.wastedBytes),
    ("total_packages", .int s.packageCount), ("packages", .list (s.packages.map .package)),
    ("vulnerabilities", .list (s.vulnerabilities.map .vulnerability)),
    ("vuln_summary", .mapping (s.severityCounts.entries.map fun (name, n) => (name, .int n))),
    ("scan_timestamp", match s.scanned with | some t => .moment t | none => .null),
    ("warnings", .list (s.warnings.map ofString))]

def optionFields (o : ReportOptions) : List (String × Value) :=
  [("no_moji", .bool o.noSymbols), ("badge_base_url", ofString o.badgeUrl)]

def momentFields (t : Timestamp) : List (String × Value) :=
  [("year", .int t.date.year), ("month", .int t.date.month), ("day", .int t.date.day),
    ("hour", .int t.hour), ("minute", .int t.minute), ("second", .int t.second),
    ("microsecond", .int t.microsecond)]

def positionFields (index length : Nat) : List (String × Value) :=
  [("index", .int (index + 1)), ("index0", .int index), ("first", .bool (index == 0)),
    ("last", .bool (index + 1 == length)), ("length", .int length),
    ("revindex", .int (length - index : Nat)), ("revindex0", .int (length - index - 1 : Nat))]

def lookup {α : Type} (fields : List (String × α)) (name : String) : Option α :=
  (fields.find? (·.1 = name)).map (·.2)

/-- The attribute of a value; none when there is no such attribute. A size that is too large to be
printed makes its attribute fail. -/
def attribute? (v : Value) (name : String) : Except Size.SizeError (Option Value) :=
  match v with
  | .item i => .ok (lookup (itemFields i) name)
  | .package p => .ok (lookup (packageFields p) name)
  | .vulnerability v => .ok (lookup (vulnerabilityFields v) name)
  | .options o => .ok (lookup (optionFields o) name)
  | .moment t => .ok (lookup (momentFields t) name)
  | .position index length => .ok (lookup (positionFields index length) name)
  | .mapping entries => .ok ((entries.find? (·.1 = Text.ofString name)).map (·.2))
  | .stats s =>
    if name = "size_mb" then s.sizeText.map fun t => some (ofString t)
    else if name = "wasted_mb" then s.wastedText.map fun t => some (ofString t)
    else if name = "total_vulnerabilities" then .ok (some (.int s.vulnerabilities.length))
    else .ok (lookup (statsFields s) name)
  | _ => .ok none

/-! ## Printing -/

def boolText (b : Bool) : Text := if b then "True" else "False"

def differenceText (n : Int) : Text :=
  let day : Int := 86400 * Timestamp.microseconds
  let days := n.fdiv day
  let rest := (n.fmod day).toNat
  let unit (name : String) (k : Int) : List Text :=
    if k = 0 then [] else [Text.ofString (name ++ "=") ++ Text.ofChars (Format.integer k)]
  "datetime.timedelta(" ++
    Text.join ", " (unit "days" days ++
      unit "seconds" (rest / Timestamp.microseconds : Nat) ++
      unit "microseconds" (rest % Timestamp.microseconds : Nat)) ++ ")"

def momentText (t : Timestamp) : Text :=
  let number (n : Nat) : Text := Text.ofChars (Format.digits n)
  let zone : List Text :=
    match t.offset with
    | none => []
    | some o =>
      if o = 0 then [Text.ofString "tzinfo=datetime.timezone.utc"]
      else ["tzinfo=datetime.timezone(" ++ differenceText o ++ ")"]
  let small :=
    if t.microsecond ≠ 0 then [number t.second, number t.microsecond]
    else if t.second ≠ 0 then [number t.second]
    else []
  "datetime.datetime(" ++
    Text.join ", " ([number t.date.year, number t.date.month, number t.date.day, number t.hour,
      number t.minute] ++ small ++ zone) ++ ")"

/-- Named pieces, each as `name=piece`. -/
def named (pieces : List (String × Text)) : List Text :=
  pieces.map fun (name, piece) => Text.ofString name ++ "=" ++ piece

def quotedText (t : Text) : Text := Text.ofChars (Quoted.quoteText t)

def quotedString (s : String) : Text := quotedText (Text.ofString s)

def bracketed (opening closing : String) (pieces : List Text) : Text :=
  opening ++ Text.join ", " pieces ++ closing

def packagePieces (p : Package) : List Text :=
  named [("name", quotedText p.name), ("version", quotedText p.version)]

def vulnerabilityPieces (v : Vulnerability) : List Text :=
  named [("id", quotedText v.id), ("severity", quotedText v.severity),
    ("package", quotedText v.package), ("version", quotedText v.version)]

def itemPieces (i : Item) : List Text :=
  named [("name", quotedString i.name),
    ("type", "<InstructionKind." ++ Text.ofString i.kind.keyword ++ ": " ++
      quotedString i.kind.keyword ++ ">"),
    ("description", quotedString i.description), ("value", quotedString i.value),
    ("required", boolText i.required)]

def optionPieces (o : ReportOptions) : List Text :=
  named [("no_moji", boolText o.noSymbols), ("badge_base_url", quotedString o.badgeUrl)]

def statsPieces (s : ImageStats) : List Text :=
  let number (n : Int) : Text := Text.ofChars (Format.integer n)
  named [("image_tag", quotedString s.imageTag), ("architecture", quotedText s.architecture),
    ("os", quotedText s.os), ("os_distro", quotedText s.distribution),
    ("size_bytes", number s.sizeBytes), ("total_layers", number s.layers),
    ("supported_architectures", bracketed "[" "]" (s.platforms.map quotedText)),
    ("efficiency_score", Format.shortest s.efficiency), ("wasted_bytes", number s.wastedBytes),
    ("total_packages", number s.packageCount),
    ("packages", bracketed "[" "]"
      (s.packages.map fun p => bracketed "PackageSummary(" ")" (packagePieces p))),
    ("vulnerabilities", bracketed "[" "]"
      (s.vulnerabilities.map fun v => bracketed "Vulnerability(" ")" (vulnerabilityPieces v))),
    ("vuln_summary", bracketed "\x7b" "\x7d"
      (s.severityCounts.entries.map fun (name, n) => quotedText name ++ ": " ++ number n)),
    ("scan_timestamp", match s.scanned with | some t => momentText t | none => "None"),
    ("warnings", bracketed "[" "]" (s.warnings.map quotedString))]

mutual

def quoted : Value → Text
  | .undefined _ => "Undefined"
  | .null => "None"
  | .bool b => boolText b
  | .int n => Text.ofChars (Format.integer n)
  | .float x => Format.shortest x
  | .text false t => quotedText t
  | .text true t => "Markup(" ++ quotedText t ++ ")"
  | .list items => bracketed "[" "]" (quotedItems items)
  | .mapping entries => bracketed "\x7b" "\x7d" (quotedEntries entries)
  | .item i => bracketed "DocItem(" ")" (itemPieces i)
  | .stats s => bracketed "ImageStats(" ")" (statsPieces s)
  | .package p => bracketed "PackageSummary(" ")" (packagePieces p)
  | .vulnerability v => bracketed "Vulnerability(" ")" (vulnerabilityPieces v)
  | .options o => bracketed "RenderOptions(" ")" (optionPieces o)
  | .moment t => momentText t
  | .position index length =>
    "<LoopContext " ++ Text.ofChars (Format.digits (index + 1)) ++ "/" ++
      Text.ofChars (Format.digits length) ++ ">"
  | .part name => "<Macro " ++ quotedString name ++ ">"

def quotedItems : List Value → List Text
  | [] => []
  | v :: rest => quoted v :: quotedItems rest

def quotedEntries : List (Text × Value) → List Text
  | [] => []
  | (name, v) :: rest => (quotedText name ++ ": " ++ quoted v) :: quotedEntries rest

end

def printed : Value → Text
  | .undefined _ => []
  | .text _ t => t
  | .item i => Text.join " " (itemPieces i)
  | .stats s => Text.join " " (statsPieces s)
  | .package p => Text.join " " (packagePieces p)
  | .vulnerability v => Text.join " " (vulnerabilityPieces v)
  | .options o => Text.join " " (optionPieces o)
  | .moment t => Text.ofChars t.inText
  | v => v.quoted

/-! ## Truth and equality -/

def isTrue : Value → Bool
  | .undefined _ | .null => false
  | .bool b => b
  | .int n => n != 0
  | .float x => !x.isZero
  | .text _ t => !t.isEmpty
  | .list items => !items.isEmpty
  | .mapping entries => !entries.isEmpty
  | _ => true

def isUndefined : Value → Bool
  | .undefined _ => true
  | _ => false

/-- The number that a value stands for; truth values count as zero and one. -/
def int? : Value → Option Int
  | .int n => some n
  | .bool b => some (if b then 1 else 0)
  | _ => none

def float? : Value → Option Binary64
  | .float x => some x
  | v => v.int?.map Binary64.ofInt

/-- Whether two numbers are equal; none when one of the values is not a number. -/
def sameNumber? (v w : Value) : Option Bool :=
  match v.int?, w.int? with
  | some m, some n => some (m == n)
  | _, _ =>
    match v.float?, w.float? with
    | some x, some y => some (x.eq y)
    | _, _ => none

mutual

def same : Value → Value → Bool
  | .undefined _, .undefined _ => true
  | .null, .null => true
  | .text _ t, .text _ u => t == u
  | .list vs, .list ws => sameItems vs ws
  | .mapping vs, .mapping ws => vs.length == ws.length && sameEntries vs ws
  | .item i, .item j => i == j
  | .stats s, .stats t => s == t
  | .package p, .package q => p == q
  | .vulnerability v, .vulnerability w => v == w
  | .options o, .options p => o == p
  | .moment t, .moment u => t == u
  | v, w => (sameNumber? v w).getD false

def sameItems : List Value → List Value → Bool
  | [], [] => true
  | v :: vs, w :: ws => same v w && sameItems vs ws
  | _, _ => false

def sameEntries : List (Text × Value) → List (Text × Value) → Bool
  | [], _ => true
  | (name, v) :: rest, ws =>
    (match ws.find? (·.1 = name) with
    | some (_, w) => same v w
    | none => false) && sameEntries rest ws

end

/-! ## JSON -/

mutual

def ofJson : Json → Value
  | .null => .null
  | .bool b => .bool b
  | .int n => .int n
  | .float x => .float x
  | .text t => .text false t
  | .array items => .list (ofJsonItems items)
  | .object fields => .mapping (ofJsonFields fields)

def ofJsonItems : List Json → List Value
  | [] => []
  | v :: rest => ofJson v :: ofJsonItems rest

def ofJsonFields : List (Text × Json) → List (Text × Value)
  | [] => []
  | (name, v) :: rest => (name, ofJson v) :: ofJsonFields rest

end

mutual

/-- A value as a JSON document; what JSON has no form for is printed as a text. -/
def toJson : Value → Json
  | .null => .null
  | .bool b => .bool b
  | .int n => .int n
  | .float x => .float x
  | .text _ t => .text t
  | .list items => .array (toJsonItems items)
  | .mapping entries => .object (toJsonEntries entries)
  | .undefined r => .text (printed (.undefined r))
  | .item i => .text (printed (.item i))
  | .stats s => .text (printed (.stats s))
  | .package p => .text (printed (.package p))
  | .vulnerability v => .text (printed (.vulnerability v))
  | .options o => .text (printed (.options o))
  | .moment t => .text (printed (.moment t))
  | .position i n => .text (printed (.position i n))
  | .part name => .text (printed (.part name))

def toJsonItems : List Value → List Json
  | [] => []
  | v :: rest => toJson v :: toJsonItems rest

/-- The entries of a mapping as fields of an object. -/
def toJsonEntries : List (Text × Value) → List (Text × Json)
  | [] => []
  | (name, v) :: rest => (name, toJson v) :: toJsonEntries rest

end

end Value
end ContainerDocs
