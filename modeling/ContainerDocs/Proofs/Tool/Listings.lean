import ContainerDocs.Proofs.Image.Counts
import ContainerDocs.Proofs.Image.Sorted
import ContainerDocs.Proofs.Json.Document
import ContainerDocs.Proofs.Schema.Check
import ContainerDocs.Tool.Report

/-!
# Lists in the reports of tools

A manifest lists platforms, a bill of materials lists packages and a scan lists vulnerabilities. The
statistics hold them in a definite form: platforms and packages without repetitions and in strictly
increasing order, so that only the set of the listed elements counts, and vulnerabilities in the
order of their ranks.

## Main definitions

* `Json.elementsOf`, `Json.textAt` — the elements in a field and the text at a path of a value.
* `Json.DiffersIn` — two objects that agree except for the arrays in a field.
* `Platform.described`, `Package.described`, `Vulnerability.described` — what a listed element is.

## Main statements

* `Schema.Describes.optional_of_differsIn` — the elements of a list are accepted in any order.
* `Report.readAs_eq_ok_iff` — which documents are accepted as reports.
* `Report.lists_as_sets` — what the statistics hold of the listed elements.
-/

namespace ContainerDocs

/-! ## Values of documents -/

namespace Json

/-- The elements of the array in a field; none when there is no field or no array in it. -/
def elementsOf (v : Json) (name : String) : List Json :=
  match v.field? name with
  | some (.array items) => items
  | _ => []

/-- The text at the end of a path of fields; the default when a field on the path is missing. -/
def textAt (default : Text) : List String → Json → Text
  | [], .text t => t
  | [], _ => default
  | name :: path, v =>
    match v.field? name with
    | some value => textAt default path value
    | none => default

/-- Two lists with the same elements, in any order and any number of times. -/
def SameElements (xs ys : List Json) : Prop := ∀ v, v ∈ xs ↔ v ∈ ys

theorem SameElements.subset (xs ys : List Json) (h : SameElements xs ys) : ys ⊆ xs :=
  fun v hv => (h v).2 hv

theorem SameElements.mem_map {α : Type} {xs ys : List Json} (h : SameElements xs ys)
    (f : Json → α) (a : α) : a ∈ ys.map f ↔ a ∈ xs.map f := by
  simp only [List.mem_map, h _]

/-- Two objects that agree in all fields except for one, in which they have arrays that are
alike. -/
inductive DiffersIn (name : String) (alike : List Json → List Json → Prop) : Json → Json → Prop
  | object {fields fields' : List (Text × Json)} {items items' : List Json}
      (hfields : lookup fields (Text.ofString name) = some (.array items))
      (hfields' : lookup fields' (Text.ofString name) = some (.array items'))
      (halike : alike items items')
      (hothers : ∀ n ≠ Text.ofString name, lookup fields n = lookup fields' n) :
      DiffersIn name alike (.object fields) (.object fields')

variable {name : String} {fields : List (Text × Json)} {items : List Json}

theorem field?_object (fields : List (Text × Json)) (name : String) :
    (object fields).field? name = lookup fields (Text.ofString name) := rfl

theorem elementsOf_of_lookup (h : lookup fields (Text.ofString name) = some (.array items)) :
    (object fields).elementsOf name = items := by
  rw [elementsOf, field?_object, h]

namespace DiffersIn

variable {alike : List Json → List Json → Prop} {v v' : Json}

theorem exists_fields (h : DiffersIn name alike v v') : ∃ fields, v' = .object fields := by
  cases h with
  | object => exact ⟨_, rfl⟩

theorem elements (h : DiffersIn name alike v v') :
    alike (v.elementsOf name) (v'.elementsOf name) := by
  cases h with
  | object hfields hfields' halike =>
    rwa [elementsOf_of_lookup hfields, elementsOf_of_lookup hfields']

theorem lookup_of_ne {fields' : List (Text × Json)}
    (h : DiffersIn name alike (.object fields) (.object fields')) {n : String}
    (hn : Text.ofString n ≠ Text.ofString name) :
    lookup fields (Text.ofString n) = lookup fields' (Text.ofString n) := by
  cases h with
  | object _ _ _ hothers => exact hothers _ hn

end DiffersIn

theorem textAt_cons_of_lookup {default : Text} {path : List String} {v : Json}
    (h : lookup fields (Text.ofString name) = some v) :
    textAt default (name :: path) (.object fields) = textAt default path v := by
  rw [textAt, field?_object, h]

theorem textAt_cons_of_lookup_none {default : Text} {path : List String}
    (h : lookup fields (Text.ofString name) = none) :
    textAt default (name :: path) (.object fields) = default := by
  rw [textAt, field?_object, h]

end Json

/-! ## Checks that describe values -/

namespace Schema

variable {α : Type} {check : Datum → Check α} {describe : Json → α} {name : String}
  {fields fields' : List (Text × Json)}

/-- The check reads the values that it accepts as a description says. -/
def Describes (check : Datum → Check α) (describe : Json → α) : Prop :=
  ∀ v a, check (.ofJson v) = .ok a → a = describe v

theorem Describes.eq_map (h : Describes check describe) {items : List Json} {as : List α}
    (hall : List.Forall₂ (fun v a => check (.ofJson v) = .ok a) items as) :
    as = items.map describe ∧ ∀ v ∈ items, check (.ofJson v) = .ok (describe v) := by
  induction hall with
  | nil => simp
  | cons hv _ ih =>
    obtain ⟨rfl, hmem⟩ := ih
    obtain rfl := h _ _ hv
    exact ⟨rfl, List.forall_mem_cons.2 ⟨hv, hmem⟩⟩

/-- An optional text is at the path of its field. -/
theorem eq_textAt_of_optional {default t : Text}
    (h : optional (Datum.ofJsonFields fields) name default text = .ok t) :
    t = Json.textAt default [name] (.object fields) := by
  obtain ⟨v, hv, ht⟩ | ⟨hnone, rfl⟩ := optional_eq_ok_iff.1 h
  · obtain rfl := text_eq_ok_iff.1 ht
    rw [Json.textAt_cons_of_lookup hv]
    rfl
  · rw [Json.textAt_cons_of_lookup_none hnone]

/-- So is a required one. -/
theorem eq_textAt_of_required {default t : Text}
    (h : required (Datum.ofJsonFields fields) name text = .ok t) :
    t = Json.textAt default [name] (.object fields) := by
  obtain ⟨v, hv, ht⟩ := required_eq_ok_iff.1 h
  obtain rfl := text_eq_ok_iff.1 ht
  rw [Json.textAt_cons_of_lookup hv]
  rfl

theorem optional_congr {default : α}
    (h : Json.lookup fields (Text.ofString name) = Json.lookup fields' (Text.ofString name)) :
    optional (Datum.ofJsonFields fields) name default check =
      optional (Datum.ofJsonFields fields') name default check := by
  rw [optional, optional, Datum.lookup_ofJsonFields, Datum.lookup_ofJsonFields, h]

/-- What is read from a list, which may be missing or null, is described by its elements. -/
theorem Describes.optional_list (h : Describes check describe) {o : Option (List α)}
    (ho : optional (Datum.ofJsonFields fields) name none (nullable (listOf check)) = .ok o) :
    o.getD [] = ((Json.object fields).elementsOf name).map describe ∧
      ∀ v ∈ (Json.object fields).elementsOf name, check (.ofJson v) = .ok (describe v) := by
  obtain ⟨v, hv, ho⟩ | ⟨hnone, rfl⟩ := optional_eq_ok_iff.1 ho
  · obtain ⟨rfl, rfl⟩ | ⟨-, as, has, rfl⟩ := nullable_eq_ok_iff.1 ho
    · have helements : (Json.object fields).elementsOf name = [] := by
        rw [Json.elementsOf, Json.field?_object, hv]
      simp [helements]
    · obtain ⟨items, rfl, hall⟩ := listOf_eq_ok_iff.1 has
      rw [Json.elementsOf_of_lookup hv]
      exact h.eq_map hall
  · have helements : (Json.object fields).elementsOf name = [] := by
      rw [Json.elementsOf, Json.field?_object, hnone]
    simp [helements]

/-- An array of accepted elements is accepted. -/
theorem optional_list_of_forall {items : List Json}
    (hitems : Json.lookup fields (Text.ofString name) = some (.array items))
    (h : ∀ v ∈ items, check (.ofJson v) = .ok (describe v)) :
    optional (Datum.ofJsonFields fields) name none (nullable (listOf check)) =
      .ok (some (items.map describe)) := by
  refine optional_eq_ok_iff.2 (.inl ⟨_, hitems, nullable_eq_ok_iff.2 (.inr ⟨?_, _, ?_, rfl⟩)⟩)
  · rintro ⟨⟩
  · refine listOf_eq_ok_iff.2 ⟨items, rfl, ?_⟩
    rw [List.forall₂_map_right_iff, List.forall₂_same]
    exact h

/-- Where a list is accepted, one that holds no other elements is accepted as well. -/
theorem Describes.optional_of_differsIn (h : Describes check describe)
    {alike : List Json → List Json → Prop} (halike : ∀ xs ys, alike xs ys → ys ⊆ xs)
    (hdiffers : Json.DiffersIn name alike (.object fields) (.object fields'))
    {o : Option (List α)}
    (ho : optional (Datum.ofJsonFields fields) name none (nullable (listOf check)) = .ok o) :
    optional (Datum.ofJsonFields fields') name none (nullable (listOf check)) =
      .ok (some (((Json.object fields').elementsOf name).map describe)) := by
  cases hdiffers with
  | object hfields hfields' hitems _ =>
    obtain ⟨-, haccepted⟩ := h.optional_list ho
    rw [Json.elementsOf_of_lookup hfields] at haccepted
    rw [Json.elementsOf_of_lookup hfields']
    exact optional_list_of_forall hfields' fun v hv => haccepted v (halike _ _ hitems hv)

end Schema

/-! ## Accepted documents -/

/-- A document is accepted as a report when it is an object that the schema accepts. -/
theorem Report.readAs_eq_ok_iff {α : Type} {tool schema : String} {check : Datum → Check α}
    {nesting : Json.Nesting} {output : Bytes} {a : α} :
    readAs tool schema true check nesting output = .ok a ↔
      ∃ fields, Json.read nesting output = .ok (.object fields) ∧
        check (.ofJson (.object fields)) = .ok a := by
  rw [readAs]
  cases Json.read nesting output with
  | error e => simp
  | ok v =>
    cases v with
    | object fields => cases hcheck : check (.ofJson (.object fields)) <;> simp [hcheck]
    | _ => simp

theorem Report.exists_fields_of_readAs {α : Type} {tool schema : String} {check : Datum → Check α}
    {nesting : Json.Nesting}
    {output : Bytes} {doc : Json} {a : α} (hdoc : Json.read nesting output = .ok doc)
    (h : readAs tool schema true check nesting output = .ok a) :
    ∃ fields, doc = .object fields ∧ check (.ofJson (.object fields)) = .ok a := by
  obtain ⟨fields, hfields, h⟩ := readAs_eq_ok_iff.1 h
  exact ⟨fields, Except.ok.inj (hdoc.symm.trans hfields), h⟩

/-! ## Platforms of a manifest -/

def Platform.described (entry : Json) : Platform where
  os := entry.textAt [] ["platform", "os"]
  architecture := entry.textAt [] ["platform", "architecture"]

namespace ManifestReport

theorem describes_entrySchema : Schema.Describes entrySchema Platform.described := by
  intro v p h
  obtain ⟨fields, rfl, h⟩ := Schema.record_eq_ok_iff.1 h
  obtain ⟨platform, hplatform, h⟩ | ⟨hnone, rfl⟩ := Schema.optional_eq_ok_iff.1 h
  · obtain ⟨parts, rfl, h⟩ := Schema.record_eq_ok_iff.1 h
    obtain ⟨g, architecture, hg, harchitecture, rfl⟩ := Check.seq_eq_ok_iff.1 h
    obtain ⟨os, hos, rfl⟩ := Check.map_eq_ok_iff.1 hg
    rw [Platform.described, Json.textAt_cons_of_lookup hplatform,
      Json.textAt_cons_of_lookup hplatform, ← Schema.eq_textAt_of_optional hos,
      ← Schema.eq_textAt_of_optional harchitecture]
  · rw [Platform.described, Json.textAt_cons_of_lookup_none hnone,
      Json.textAt_cons_of_lookup_none hnone]

theorem schema_eq_ok_iff {fields : List (Text × Json)} {r : ManifestReport} :
    schema (.ofJson (.object fields)) = .ok r ↔ ∃ o, Schema.optional (Datum.ofJsonFields fields)
      "manifests" none (Schema.nullable (Schema.listOf entrySchema)) = .ok o ∧
        ⟨o.getD []⟩ = r :=
  Check.map_eq_ok_iff

/-- The statistics hold the platforms of a manifest's entries that are known, written out and in
strictly increasing order. -/
structure Lists (doc : Json) (s : ImageStats) : Prop where
  increasing : s.platforms.Pairwise fun a b => a.codes < b.codes
  mem_iff : ∀ t, t ∈ s.platforms ↔ ∃ p ∈ (doc.elementsOf "manifests").map Platform.described,
    p.os ≠ Text.ofString "unknown" ∧ ¬(p.os = [] ∧ p.architecture = []) ∧
      t = p.os ++ Text.ofString "/" ++ p.architecture

theorem mem_platforms {image : String} {r : ManifestReport} {t : Text} :
    t ∈ (r.stats image).platforms ↔ ∃ p ∈ r.platforms,
      p.os ≠ Text.ofString "unknown" ∧ ¬(p.os = [] ∧ p.architecture = []) ∧
        t = p.os ++ Text.ofString "/" ++ p.architecture := by
  simp only [stats, Ordered.mem_distinct, List.mem_map, List.mem_filter, isKnown, platformText]
  grind

/-- Only the set of the platforms counts. -/
theorem stats_congr {image : String} {r r' : ManifestReport}
    (h : ∀ p, p ∈ r'.platforms ↔ p ∈ r.platforms) : r'.stats image = r.stats image := by
  have hplatforms : Ordered.distinct Text.le ((r'.platforms.filter isKnown).map platformText) =
      Ordered.distinct Text.le ((r.platforms.filter isKnown).map platformText) :=
    Ordered.distinct_congr Text.ranksBy fun t => by simp [h]
  rw [stats, stats, hplatforms]

variable {nesting : Json.Nesting} {output output' : Bytes} {doc doc' : Json} {r : ManifestReport}

theorem platforms_of_read (hdoc : Json.read nesting output = .ok doc)
    (h : read nesting output = .ok r) :
    r.platforms = (doc.elementsOf "manifests").map Platform.described := by
  obtain ⟨fields, rfl, h⟩ := Report.exists_fields_of_readAs hdoc h
  obtain ⟨o, ho, rfl⟩ := schema_eq_ok_iff.1 h
  exact (describes_entrySchema.optional_list ho).1

theorem lists_of_read (image : String) (hdoc : Json.read nesting output = .ok doc)
    (h : read nesting output = .ok r) : Lists doc (r.stats image) where
  increasing := (Ordered.pairwise_distinct Text.le_trans Text.le_total
    (fun _ _ => Text.le_antisymm) _).imp Text.lt_iff_codes.1
  mem_iff t := by rw [← platforms_of_read hdoc h, mem_platforms]

/-- A manifest that lists the same entries in another order or number says the same. -/
theorem exists_read_of_sameElements (image : String) (hdoc : Json.read nesting output = .ok doc)
    (hdoc' : Json.read nesting output' = .ok doc') (h : read nesting output = .ok r)
    (hdiffers : Json.DiffersIn "manifests" Json.SameElements doc doc') :
    ∃ r', read nesting output' = .ok r' ∧ r'.stats image = r.stats image := by
  obtain ⟨fields, rfl, haccepted⟩ := Report.exists_fields_of_readAs hdoc h
  obtain ⟨fields', rfl⟩ := hdiffers.exists_fields
  obtain ⟨o, ho, -⟩ := schema_eq_ok_iff.1 haccepted
  have hlist := describes_entrySchema.optional_of_differsIn Json.SameElements.subset hdiffers ho
  have hread : read nesting output' = .ok _ :=
    Report.readAs_eq_ok_iff.2 ⟨fields', hdoc', schema_eq_ok_iff.2 ⟨_, hlist, rfl⟩⟩
  refine ⟨_, hread, stats_congr fun p => ?_⟩
  rw [platforms_of_read hdoc h, platforms_of_read hdoc' hread, hdiffers.elements.mem_map]

end ManifestReport

/-! ## Packages of a bill of materials -/

def Package.described (artifact : Json) : Package where
  name := artifact.textAt [] ["name"]
  version := artifact.textAt [] ["version"]

namespace PackageReport

theorem describes_artifactSchema : Schema.Describes artifactSchema Package.described := by
  intro v p h
  obtain ⟨fields, rfl, h⟩ := Schema.record_eq_ok_iff.1 h
  obtain ⟨g, kind, hg, -, rfl⟩ := Check.seq_eq_ok_iff.1 h
  obtain ⟨f, version, hf, hversion, rfl⟩ := Check.seq_eq_ok_iff.1 hg
  obtain ⟨name, hname, rfl⟩ := Check.map_eq_ok_iff.1 hf
  rw [Package.described, ← Schema.eq_textAt_of_required hname,
    ← Schema.eq_textAt_of_optional hversion]

theorem schema_eq_ok_iff {fields : List (Text × Json)} {r : PackageReport} :
    schema (.ofJson (.object fields)) = .ok r ↔ ∃ distribution o,
      Schema.optional (Datum.ofJsonFields fields) "distro" none
        (Schema.nullable distributionSchema) = .ok distribution ∧
      Schema.optional (Datum.ofJsonFields fields) "artifacts" none
        (Schema.nullable (Schema.listOf artifactSchema)) = .ok o ∧
      ⟨(distribution.getD ([], [])).1, (distribution.getD ([], [])).2, o.getD []⟩ = r := by
  constructor
  · intro h
    obtain ⟨g, o, hg, ho, rfl⟩ := Check.seq_eq_ok_iff.1 h
    obtain ⟨distribution, hdistribution, rfl⟩ := Check.map_eq_ok_iff.1 hg
    exact ⟨distribution, o, hdistribution, ho, rfl⟩
  · rintro ⟨distribution, o, hdistribution, ho, rfl⟩
    exact Check.seq_eq_ok_iff.2 ⟨_, o, Check.map_eq_ok_iff.2 ⟨_, hdistribution, rfl⟩, ho, rfl⟩

/-- The statistics hold the packages of the artifacts, without repetitions and in strictly
increasing order, and their number. -/
structure Lists (doc : Json) (s : ImageStats) : Prop where
  increasing : s.packages.Pairwise Package.Before
  mem_iff : ∀ p, p ∈ s.packages ↔ p ∈ (doc.elementsOf "artifacts").map Package.described
  count : s.packageCount = s.packages.length

/-- Only the set of the packages counts. -/
theorem stats_congr {r r' : PackageReport} (hname : r'.distributionName = r.distributionName)
    (hversion : r'.distributionVersion = r.distributionVersion)
    (h : ∀ p, p ∈ r'.artifacts ↔ p ∈ r.artifacts) : r'.stats = r.stats := by
  have hpackages : Package.sorted r'.artifacts = Package.sorted r.artifacts :=
    Ordered.distinct_congr Package.ranksBy h
  rw [stats, stats, distribution, distribution, hname, hversion, hpackages]

variable {nesting : Json.Nesting} {output output' : Bytes} {doc doc' : Json} {r : PackageReport}

theorem artifacts_of_read (hdoc : Json.read nesting output = .ok doc)
    (h : read nesting output = .ok r) :
    r.artifacts = (doc.elementsOf "artifacts").map Package.described := by
  obtain ⟨fields, rfl, h⟩ := Report.exists_fields_of_readAs hdoc h
  obtain ⟨distribution, o, -, ho, rfl⟩ := schema_eq_ok_iff.1 h
  exact (describes_artifactSchema.optional_list ho).1

theorem lists_of_read (hdoc : Json.read nesting output = .ok doc)
    (h : read nesting output = .ok r) : Lists doc r.stats where
  increasing := (Package.pairwise_sorted _).imp Package.before_iff.1
  mem_iff p := by rw [← artifacts_of_read hdoc h, stats, Package.mem_sorted]
  count := rfl

/-- A bill of materials that lists the same artifacts in another order or number says the same. -/
theorem exists_read_of_sameElements (hdoc : Json.read nesting output = .ok doc)
    (hdoc' : Json.read nesting output' = .ok doc') (h : read nesting output = .ok r)
    (hdiffers : Json.DiffersIn "artifacts" Json.SameElements doc doc') :
    ∃ r', read nesting output' = .ok r' ∧ r'.stats = r.stats := by
  obtain ⟨fields, rfl, haccepted⟩ := Report.exists_fields_of_readAs hdoc h
  obtain ⟨fields', rfl⟩ := hdiffers.exists_fields
  obtain ⟨distribution, o, hdistribution, ho, rfl⟩ := schema_eq_ok_iff.1 haccepted
  have hlist := describes_artifactSchema.optional_of_differsIn Json.SameElements.subset hdiffers ho
  rw [Schema.optional_congr (hdiffers.lookup_of_ne (by decide))] at hdistribution
  have hread : read nesting output' = .ok _ := Report.readAs_eq_ok_iff.2
    ⟨fields', hdoc', schema_eq_ok_iff.2 ⟨_, _, hdistribution, hlist, rfl⟩⟩
  refine ⟨_, hread, stats_congr rfl rfl fun p => ?_⟩
  rw [artifacts_of_read hdoc h, artifacts_of_read hdoc' hread, hdiffers.elements.mem_map]

end PackageReport

/-! ## Vulnerabilities of a scan -/

/-- The vulnerability that a match of a scan reports. -/
def Vulnerability.described (found : Json) : Vulnerability where
  id := found.textAt [] ["vulnerability", "id"]
  severity := found.textAt (Text.ofString "Unknown") ["vulnerability", "severity"]
  package := found.textAt [] ["artifact", "name"]
  version := found.textAt [] ["artifact", "version"]

namespace VulnerabilityReport

theorem eq_of_vulnerabilitySchema {v : Json} {pair : Text × Text}
    (h : vulnerabilitySchema (.ofJson v) = .ok pair) :
    pair = (v.textAt [] ["id"], v.textAt (Text.ofString "Unknown") ["severity"]) := by
  obtain ⟨fields, rfl, h⟩ := Schema.record_eq_ok_iff.1 h
  obtain ⟨g, severity, hg, hseverity, rfl⟩ := Check.seq_eq_ok_iff.1 h
  obtain ⟨id, hid, rfl⟩ := Check.map_eq_ok_iff.1 hg
  rw [← Schema.eq_textAt_of_required hid, ← Schema.eq_textAt_of_optional hseverity]

theorem eq_of_artifactSchema {v : Json} {pair : Text × Text}
    (h : artifactSchema (.ofJson v) = .ok pair) :
    pair = (v.textAt [] ["name"], v.textAt [] ["version"]) := by
  obtain ⟨fields, rfl, h⟩ := Schema.record_eq_ok_iff.1 h
  obtain ⟨g, version, hg, hversion, rfl⟩ := Check.seq_eq_ok_iff.1 h
  obtain ⟨name, hname, rfl⟩ := Check.map_eq_ok_iff.1 hg
  rw [← Schema.eq_textAt_of_optional hname, ← Schema.eq_textAt_of_optional hversion]

theorem describes_matchSchema : Schema.Describes matchSchema Vulnerability.described := by
  intro v found h
  obtain ⟨fields, rfl, h⟩ := Schema.record_eq_ok_iff.1 h
  obtain ⟨g, artifact, hg, hartifact, rfl⟩ := Check.seq_eq_ok_iff.1 h
  obtain ⟨pair, hpair, rfl⟩ := Check.map_eq_ok_iff.1 hg
  obtain ⟨vulnerability, hvulnerability, hpair⟩ := Schema.required_eq_ok_iff.1 hpair
  obtain rfl := eq_of_vulnerabilitySchema hpair
  obtain ⟨w, hw, hartifact⟩ | ⟨hnone, rfl⟩ := Schema.optional_eq_ok_iff.1 hartifact
  · obtain rfl := eq_of_artifactSchema hartifact
    rw [Vulnerability.described, Json.textAt_cons_of_lookup hvulnerability,
      Json.textAt_cons_of_lookup hvulnerability, Json.textAt_cons_of_lookup hw,
      Json.textAt_cons_of_lookup hw]
  · rw [Vulnerability.described, Json.textAt_cons_of_lookup hvulnerability,
      Json.textAt_cons_of_lookup hvulnerability, Json.textAt_cons_of_lookup_none hnone,
      Json.textAt_cons_of_lookup_none hnone]

theorem schema_eq_ok_iff {fields : List (Text × Json)} {r : VulnerabilityReport} :
    schema (.ofJson (.object fields)) = .ok r ↔ ∃ timestamp o,
      Schema.optional (Datum.ofJsonFields fields) "descriptor" none
        (Schema.nullable descriptorSchema) = .ok timestamp ∧
      Schema.optional (Datum.ofJsonFields fields) "matches" none
        (Schema.nullable (Schema.listOf matchSchema)) = .ok o ∧
      ⟨timestamp.getD [], o.getD []⟩ = r := by
  constructor
  · intro h
    obtain ⟨g, o, hg, ho, rfl⟩ := Check.seq_eq_ok_iff.1 h
    obtain ⟨timestamp, htimestamp, rfl⟩ := Check.map_eq_ok_iff.1 hg
    exact ⟨timestamp, o, htimestamp, ho, rfl⟩
  · rintro ⟨timestamp, o, htimestamp, ho, rfl⟩
    exact Check.seq_eq_ok_iff.2 ⟨_, o, Check.map_eq_ok_iff.2 ⟨_, htimestamp, rfl⟩, ho, rfl⟩

/-- The statistics hold the vulnerabilities of the matches, the higher ranks first and among equal
ranks the smaller identifiers. -/
structure Lists (doc : Json) (s : ImageStats) : Prop where
  perm : s.vulnerabilities.Perm ((doc.elementsOf "matches").map Vulnerability.described)
  ordered : s.vulnerabilities.Pairwise Vulnerability.NotAfter

variable {nesting : Json.Nesting} {output output' : Bytes} {doc doc' : Json}
  {r : VulnerabilityReport}

theorem found_of_read (hdoc : Json.read nesting output = .ok doc)
    (h : read nesting output = .ok r) :
    r.found = (doc.elementsOf "matches").map Vulnerability.described := by
  obtain ⟨fields, rfl, h⟩ := Report.exists_fields_of_readAs hdoc h
  obtain ⟨timestamp, o, -, ho, rfl⟩ := schema_eq_ok_iff.1 h
  exact (describes_matchSchema.optional_list ho).1

theorem lists_of_read (now : Timestamp) (hdoc : Json.read nesting output = .ok doc)
    (h : read nesting output = .ok r) : Lists doc (r.stats now) where
  perm := found_of_read hdoc h ▸ Vulnerability.sorted_perm _
  ordered := (Vulnerability.ranksBy.pairwise_mergeSort _).imp Vulnerability.le_iff.1

/-- The order of the vulnerabilities that a scan found counts neither for the numbers of the
severities nor for the ranks and identifiers in their order. -/
theorem stats_perm (now : Timestamp) {r' : VulnerabilityReport} (h : r.found.Perm r'.found) :
    (∀ severity, (r'.stats now).vulnerabilityCount severity =
      (r.stats now).vulnerabilityCount severity) ∧
    (r'.stats now).vulnerabilities.map Vulnerability.key =
      (r.stats now).vulnerabilities.map Vulnerability.key := by
  refine ⟨fun severity => ?_, Vulnerability.ranksBy.map_mergeSort h.symm⟩
  have hcount := (h.map (·.severity)).count_eq severity
  simp only [ImageStats.vulnerabilityCount, stats, Counts.get_ofList, hcount]

/-- A scan that lists the same matches in another order is accepted as well. -/
theorem exists_read_of_perm (now : Timestamp) (hdoc : Json.read nesting output = .ok doc)
    (hdoc' : Json.read nesting output' = .ok doc') (h : read nesting output = .ok r)
    (hdiffers : Json.DiffersIn "matches" List.Perm doc doc') :
    ∃ r', read nesting output' = .ok r' ∧
      (∀ severity, (r'.stats now).vulnerabilityCount severity =
        (r.stats now).vulnerabilityCount severity) ∧
      (r'.stats now).vulnerabilities.map Vulnerability.key =
        (r.stats now).vulnerabilities.map Vulnerability.key := by
  obtain ⟨fields, rfl, haccepted⟩ := Report.exists_fields_of_readAs hdoc h
  obtain ⟨fields', rfl⟩ := hdiffers.exists_fields
  obtain ⟨timestamp, o, htimestamp, ho, -⟩ := schema_eq_ok_iff.1 haccepted
  have hlist := describes_matchSchema.optional_of_differsIn
    (fun _ _ hperm => hperm.symm.subset) hdiffers ho
  rw [Schema.optional_congr (hdiffers.lookup_of_ne (by decide))] at htimestamp
  have hread : read nesting output' = .ok _ := Report.readAs_eq_ok_iff.2
    ⟨fields', hdoc', schema_eq_ok_iff.2 ⟨_, _, htimestamp, hlist, rfl⟩⟩
  refine ⟨_, hread, stats_perm now ?_⟩
  rw [found_of_read hdoc h, found_of_read hdoc' hread]
  exact hdiffers.elements.map _

end VulnerabilityReport

/-! ## All lists -/

/-- What the statistics of a report hold of the listed elements, and that the order of the elements
does not matter, nor the number of times that a platform or a package is listed. -/
theorem Report.lists_as_sets (image : String) (now : Timestamp) {nesting : Json.Nesting}
    {output output' : Bytes} {doc doc' : Json} (hdoc : Json.read nesting output = .ok doc)
    (hdoc' : Json.read nesting output' = .ok doc') :
    (∀ r, ManifestReport.read nesting output = .ok r →
      ManifestReport.Lists doc (r.stats image) ∧
      (Json.DiffersIn "manifests" Json.SameElements doc doc' →
        ∃ r', ManifestReport.read nesting output' = .ok r' ∧ r'.stats image = r.stats image)) ∧
    (∀ r, PackageReport.read nesting output = .ok r →
      PackageReport.Lists doc r.stats ∧
      (Json.DiffersIn "artifacts" Json.SameElements doc doc' →
        ∃ r', PackageReport.read nesting output' = .ok r' ∧ r'.stats = r.stats)) ∧
    ∀ r, VulnerabilityReport.read nesting output = .ok r →
      VulnerabilityReport.Lists doc (r.stats now) ∧
      (Json.DiffersIn "matches" List.Perm doc doc' →
        ∃ r', VulnerabilityReport.read nesting output' = .ok r' ∧
          (∀ severity, (r'.stats now).vulnerabilityCount severity =
            (r.stats now).vulnerabilityCount severity) ∧
          (r'.stats now).vulnerabilities.map Vulnerability.key =
            (r.stats now).vulnerabilities.map Vulnerability.key) :=
  ⟨fun _ h => ⟨ManifestReport.lists_of_read image hdoc h,
      ManifestReport.exists_read_of_sameElements image hdoc hdoc' h⟩,
    fun _ h => ⟨PackageReport.lists_of_read hdoc h,
      PackageReport.exists_read_of_sameElements hdoc hdoc' h⟩,
    fun _ h => ⟨VulnerabilityReport.lists_of_read now hdoc h,
      VulnerabilityReport.exists_read_of_perm now hdoc hdoc' h⟩⟩

def Json.nested (path : List String) (v : Json) : Json :=
  path.foldr (fun name v => .object [(Text.ofString name, v)]) v

theorem Json.Printable.nested {v : Json} {levels : Nat} (h : Printable levels v)
    (path : List String) : Printable (levels + path.length) (Json.nested path v) := by
  induction path with
  | nil => exact h
  | cons name path ih =>
    have hname : (Text.ofString name).joined = Text.ofString name :=
      Text.joined_of_forall (Text.isHalf_ofChars name.toList)
    exact .object (List.nodup_singleton _) (List.forall_mem_singleton.2 hname)
      (List.forall_mem_singleton.2 ih)

theorem Json.joined_nested (path : List String) (v : Json) :
    (nested path v).joined = nested path v.joined := by
  induction path with
  | nil => rfl
  | cons name path ih =>
    have hfield : nested (name :: path) v = .object [(Text.ofString name, nested path v)] := rfl
    rw [hfield, joined_object, List.map_singleton, joinedField, ih]
    rfl

def Json.printedList (name : String) (items : List Json) : Bytes :=
  Encoding.bytesOf (Text.ofChars (prettyAt 0 (nested [name] (.array items)) ++ ['\n']))

/-- The value is flat and holds no halves of surrogate pairs that would be joined. -/
def Json.IsFlat (v : Json) : Prop := Printable 2 v ∧ v.joined = v

theorem Json.isFlat_nested {path : List String} (h : path.length ≤ 2) (s : String) :
    IsFlat (nested path (.ofString s)) := by
  have hprintable : Printable 0 (.ofString s) := .text _
  refine ⟨(hprintable.nested path).mono (by omega), ?_⟩
  rw [joined_nested, joined_ofString]

theorem Json.isFlat_empty : IsFlat (.object []) :=
  ⟨.object List.Pairwise.nil (by simp) (by simp), rfl⟩

theorem Json.read_printedList (name : String) {items : List Json} (h : ∀ v ∈ items, IsFlat v) :
    read .usual (printedList name items) = .ok (nested [name] (.array items)) := by
  have hjoined : joined (.array items) = .array items := by
    rw [joined_array, List.map_congr_left fun v hv => (h v hv).2, List.map_id']
  have hprintable := (Printable.array fun v hv => (h v hv).1).nested [name]
  have hread : read .usual (printedList name items) = .ok _ :=
    read_bytesOf_object hprintable (Nat.le_trans (by simp) Nesting.usual.hundred_le)
  exact hread.trans (congrArg Except.ok ((joined_nested [name] _).trans (by rw [hjoined])))

theorem Json.differsIn_nested {name : String} {items items' : List Json}
    {alike : List Json → List Json → Prop} (h : alike items items') :
    DiffersIn name alike (nested [name] (.array items)) (nested [name] (.array items')) :=
  .object (by simp [lookup]) (by simp [lookup]) h fun n hn => by simp [lookup, Ne.symm hn]

/-- Documents with repeated, incomplete and unknown elements, and the same in another order. -/
theorem Report.lists_as_sets_of_repeated :
    let linux := Json.nested ["platform", "os"] (.ofString "linux")
    let arm := Json.nested ["platform", "architecture"] (.ofString "arm64")
    let attestation := Json.nested ["platform", "os"] (.ofString "unknown")
    let musl := Json.nested ["name"] (.ofString "musl")
    let zlib := Json.nested ["name"] (.ofString "zlib")
    let first := Json.nested ["vulnerability", "id"] (.ofString "CVE-1")
    let second := Json.nested ["vulnerability", "id"] (.ofString "CVE-2")
    let entries := [linux, arm, attestation, linux, .object []]
    let entries' := [.object [], arm, linux, attestation]
    let now : Timestamp := ⟨⟨2024, 1, 1⟩, 0, 0, 0, 0, none⟩
    (∃ r r', ManifestReport.read .usual (Json.printedList "manifests" entries) = .ok r ∧
      ManifestReport.Lists (Json.nested ["manifests"] (.array entries)) (r.stats "app") ∧
      ManifestReport.read .usual (Json.printedList "manifests" entries') = .ok r' ∧
      r'.stats "app" = r.stats "app") ∧
    (∃ r r', PackageReport.read .usual (Json.printedList "artifacts" [zlib, musl, zlib]) = .ok r ∧
      PackageReport.Lists (Json.nested ["artifacts"] (.array [zlib, musl, zlib])) r.stats ∧
      PackageReport.read .usual (Json.printedList "artifacts" [musl, zlib]) = .ok r' ∧
      r'.stats = r.stats) ∧
    ∃ r r', VulnerabilityReport.read .usual (Json.printedList "matches" [second, first]) = .ok r ∧
      VulnerabilityReport.Lists (Json.nested ["matches"] (.array [second, first])) (r.stats now) ∧
      VulnerabilityReport.read .usual (Json.printedList "matches" [first, second]) = .ok r' ∧
      (r'.stats now).vulnerabilities.map Vulnerability.key =
        (r.stats now).vulnerabilities.map Vulnerability.key := by
  intro linux arm attestation musl zlib first second entries entries' now
  have hlinux : linux.IsFlat := Json.isFlat_nested (by decide) _
  have harm : arm.IsFlat := Json.isFlat_nested (by decide) _
  have hattestation : attestation.IsFlat := Json.isFlat_nested (by decide) _
  have hzlib : zlib.IsFlat := Json.isFlat_nested (by decide) _
  have hmusl : musl.IsFlat := Json.isFlat_nested (by decide) _
  have hfirst : first.IsFlat := Json.isFlat_nested (by decide) _
  have hsecond : second.IsFlat := Json.isFlat_nested (by decide) _
  have hentries : ∀ v ∈ entries, v.IsFlat := by
    simp [entries, hlinux, harm, hattestation, Json.isFlat_empty]
  have hentries' : ∀ v ∈ entries', v.IsFlat := by
    simp [entries', hlinux, harm, hattestation, Json.isFlat_empty]
  have hartifacts : ∀ v ∈ [zlib, musl, zlib], v.IsFlat := by simp [hzlib, hmusl]
  have hartifacts' : ∀ v ∈ [musl, zlib], v.IsFlat := by simp [hzlib, hmusl]
  have hmatches : ∀ v ∈ [second, first], v.IsFlat := by simp [hfirst, hsecond]
  have hmatches' : ∀ v ∈ [first, second], v.IsFlat := by simp [hfirst, hsecond]
  have hreordered : ∀ a b c d : Json, Json.SameElements [a, b, c, a, d] [d, b, a, c] := by
    intro a b c d v
    simp only [List.mem_cons, List.not_mem_nil]
    tauto
  have hrepeated : ∀ a b : Json, Json.SameElements [a, b, a] [b, a] := by
    intro a b v
    simp only [List.mem_cons, List.not_mem_nil]
    tauto
  refine ⟨?_, ?_, ?_⟩
  · have hdoc := Json.read_printedList "manifests" hentries
    obtain ⟨hmanifest, -⟩ := Report.lists_as_sets "app" now hdoc
      (Json.read_printedList "manifests" hentries')
    have haccepted : ∃ r, ManifestReport.schema
        (.ofJson (Json.nested ["manifests"] (.array entries))) = .ok r := ⟨_, rfl⟩
    obtain ⟨r, hr⟩ := haccepted
    replace hr : ManifestReport.read .usual (Json.printedList "manifests" entries) = .ok r :=
      Report.readAs_eq_ok_iff.2 ⟨_, hdoc, hr⟩
    obtain ⟨hlists, hsame⟩ := hmanifest r hr
    obtain ⟨r', hr', hstats⟩ := hsame (Json.differsIn_nested (hreordered _ _ _ _))
    exact ⟨r, r', hr, hlists, hr', hstats⟩
  · have hdoc := Json.read_printedList "artifacts" hartifacts
    obtain ⟨-, hbill, -⟩ := Report.lists_as_sets "app" now hdoc
      (Json.read_printedList "artifacts" hartifacts')
    have haccepted : ∃ r, PackageReport.schema
        (.ofJson (Json.nested ["artifacts"] (.array [zlib, musl, zlib]))) = .ok r := ⟨_, rfl⟩
    obtain ⟨r, hr⟩ := haccepted
    replace hr :
        PackageReport.read .usual (Json.printedList "artifacts" [zlib, musl, zlib]) = .ok r :=
      Report.readAs_eq_ok_iff.2 ⟨_, hdoc, hr⟩
    obtain ⟨hlists, hsame⟩ := hbill r hr
    obtain ⟨r', hr', hstats⟩ := hsame (Json.differsIn_nested (hrepeated _ _))
    exact ⟨r, r', hr, hlists, hr', hstats⟩
  · have hdoc := Json.read_printedList "matches" hmatches
    obtain ⟨-, -, hscan⟩ := Report.lists_as_sets "app" now hdoc
      (Json.read_printedList "matches" hmatches')
    have haccepted : ∃ r, VulnerabilityReport.schema
        (.ofJson (Json.nested ["matches"] (.array [second, first]))) = .ok r := ⟨_, rfl⟩
    obtain ⟨r, hr⟩ := haccepted
    replace hr :
        VulnerabilityReport.read .usual (Json.printedList "matches" [second, first]) = .ok r :=
      Report.readAs_eq_ok_iff.2 ⟨_, hdoc, hr⟩
    obtain ⟨hlists, hsame⟩ := hscan r hr
    obtain ⟨r', hr', -, hkeys⟩ := hsame (Json.differsIn_nested (.swap first second []))
    exact ⟨r, r', hr, hlists, hr', hkeys⟩

end ContainerDocs
