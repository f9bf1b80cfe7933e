import ContainerDocs.Proofs.Json.Document
import ContainerDocs.Proofs.Report.Prints
import ContainerDocs.Proofs.Report.Render
import Mathlib.Data.List.Induction
import Mathlib.Data.List.Nodup

/-!
# Reports as data read back

The template for data prints a report as a document from which the report is read again: its items
in order, and the statistics of each image with every field.

## Main definitions

* `ImageStats.Recordable` — the statistics that can be printed and read.
* `Report.ComesBackAs` — what the record of statistics comes back as.

## Main statements

* `Report.printable_imageData`, `Report.printable_comparisonData` — the data of a report comes back
  from its printed form.
* `Report.data_reads_back` — reading a printed report gives its data.
-/

namespace ContainerDocs

/-! ## Documents as values of templates -/

namespace Value

mutual

theorem toJson_ofJson (v : Json) : toJson (ofJson v) = v := by
  cases v with
  | null => rfl
  | bool b => rfl
  | int n => rfl
  | float x => rfl
  | text t => rfl
  | array items => rw [ofJson, toJson, toJsonItems_ofJsonItems]
  | object fields => rw [ofJson, toJson, toJsonEntries_ofJsonFields]

theorem toJsonItems_ofJsonItems (items : List Json) : toJsonItems (ofJsonItems items) = items := by
  cases items with
  | nil => rfl
  | cons v items => rw [ofJsonItems, toJsonItems, toJson_ofJson, toJsonItems_ofJsonItems]

theorem toJsonEntries_ofJsonFields (fields : List (Text × Json)) :
    toJsonEntries (ofJsonFields fields) = fields := by
  cases fields with
  | nil => rfl
  | cons f fields =>
    obtain ⟨name, v⟩ := f
    rw [ofJsonFields, toJsonEntries, toJson_ofJson, toJsonEntries_ofJsonFields]

end

end Value

/-! ## Statistics that come back -/

namespace ImageStats

def texts (s : ImageStats) : List Text :=
  [s.architecture, s.os, s.distribution] ++ s.platforms ++
    s.packages.flatMap (fun p => [p.name, p.version]) ++
    s.vulnerabilities.flatMap (fun v => [v.id, v.severity, v.package, v.version]) ++
    s.severityCounts.keys

def integers (s : ImageStats) : List Int :=
  [s.sizeBytes, s.layers, s.wastedBytes, s.packageCount, s.vulnerabilities.length] ++
    s.severityCounts.entries.map (·.2)

/-- Statistics of which the size can be printed and whose integers are short enough to be read. -/
structure Recordable (s : ImageStats) : Prop where
  size : ∃ t, s.sizeText = .ok t
  integers : ∀ n ∈ s.integers, (Format.digits n.natAbs).length ≤ 4300

/-- The statistics with neighbouring halves of surrogate pairs joined in the texts of the fields. -/
def joined (s : ImageStats) : ImageStats :=
  { s with
    architecture := s.architecture.joined
    os := s.os.joined
    distribution := s.distribution.joined
    platforms := s.platforms.map Text.joined
    packages := s.packages.map fun p => ⟨p.name.joined, p.version.joined⟩
    vulnerabilities := s.vulnerabilities.map fun v =>
      ⟨v.id.joined, v.severity.joined, v.package.joined, v.version.joined⟩ }

theorem joined_eq_self {s : ImageStats} (h : ∀ t ∈ s.texts, t.joined = t) : s.joined = s := by
  simp only [texts, List.forall_mem_append, List.forall_mem_flatMap, List.forall_mem_cons] at h
  obtain ⟨⟨⟨⟨hnames, hplatforms⟩, hpackages⟩, hvulnerabilities⟩, -⟩ := h
  have hplatforms' : s.platforms.map Text.joined = s.platforms :=
    (List.map_congr_left hplatforms).trans (List.map_id _)
  have hpackages' : (s.packages.map fun p => (⟨p.name.joined, p.version.joined⟩ : Package)) =
      s.packages := by
    refine (List.map_congr_left fun p hp => ?_).trans (List.map_id _)
    rw [(hpackages p hp).1, (hpackages p hp).2.1]
    rfl
  have hvulnerabilities' : (s.vulnerabilities.map fun v =>
      (⟨v.id.joined, v.severity.joined, v.package.joined, v.version.joined⟩ : Vulnerability)) =
      s.vulnerabilities := by
    refine (List.map_congr_left fun v hv => ?_).trans (List.map_id _)
    obtain ⟨hid, hseverity, hpackage, hversion, -⟩ := hvulnerabilities v hv
    rw [hid, hseverity, hpackage, hversion]
    rfl
  rw [joined, hnames.1, hnames.2.1, hnames.2.2.1, hplatforms', hpackages', hvulnerabilities']

end ImageStats

namespace Report

open Json (Printable)

variable {s : ImageStats} {levels : Nat}

theorem ofString_injective : Function.Injective Text.ofString := by
  intro a b h
  exact String.toList_inj.1 (List.map_injective_iff.2 CodePoint.ofChar_injective h)

/-- A record with different names for its fields comes back if the values do. -/
theorem printable_record {fields : List (Text × Json)} (names : List String) (hnames : names.Nodup)
    (heq : fields.map (·.1) = names.map Text.ofString) (h : ∀ f ∈ fields, Printable levels f.2) :
    Printable (levels + 1) (.object fields) := by
  refine .object ?_ (fun f hf => ?_) h
  · rw [heq]
    exact List.Nodup.map ofString_injective hnames
  · have hmem := List.mem_map_of_mem (f := (·.1)) hf
    rw [heq] at hmem
    obtain ⟨name, -, hname⟩ := List.mem_map.1 hmem
    rw [← hname]
    exact Text.joined_of_forall (Text.isHalf_ofChars name.toList)

theorem printable_itemData (i : Item) : Printable (levels + 1) (itemData i) := by
  refine printable_record ["name", "type", "description", "value", "required"] (by decide) rfl ?_
  simp only [List.forall_mem_cons, field]
  exact ⟨.text _, .text _, .text _, .text _, .bool _, by simp⟩

theorem printable_packageData (p : Package) : Printable (levels + 1) (packageData p) := by
  refine printable_record ["name", "version"] (by decide) rfl ?_
  simp only [List.forall_mem_cons, field]
  exact ⟨.text _, .text _, by simp⟩

theorem printable_vulnerabilityData (v : Vulnerability) :
    Printable (levels + 1) (vulnerabilityData v) := by
  refine printable_record ["id", "severity", "package", "version"] (by decide) rfl ?_
  simp only [List.forall_mem_cons, field]
  exact ⟨.text _, .text _, .text _, .text _, by simp⟩

theorem printable_array {α : Type} {as : List α} {data : α → Json}
    (h : ∀ a, Printable levels (data a)) : Printable (levels + 1) (.array (as.map data)) := by
  refine .array fun v hv => ?_
  obtain ⟨a, -, rfl⟩ := List.mem_map.1 hv
  exact h a

/-! ## Counts -/

/-- A replaced half is no half. -/
theorem isHalf_nameText (t : Text) : ∀ c ∈ nameText t, c.isHalf = false := by
  intro c hc
  obtain ⟨d, -, hc⟩ := List.mem_flatMap.1 hc
  split_ifs at hc with hd
  · rw [List.eq_of_mem_replicate hc]
    decide
  · rw [List.mem_singleton.1 hc]
    exact Bool.eq_false_iff.2 hd

theorem nameText_of_forall {t : Text} (h : ∀ c ∈ t, c.isHalf = false) : nameText t = t := by
  refine (List.flatMap_congr fun c hc => ?_).trans (List.flatMap_singleton' t)
  rw [if_neg (by simp [h c hc])]

theorem mem_insertField {fields : List (Text × Json)} {name : Text} {v : Json} {f : Text × Json}
    (h : f ∈ Json.insertField fields name v) : f ∈ fields ∨ f = (name, v) := by
  induction fields with
  | nil => exact .inr (List.mem_singleton.1 h)
  | cons g fields ih =>
    obtain ⟨n, w⟩ := g
    rw [Json.insertField] at h
    split_ifs at h with hn
    · rw [← hn]
      exact (List.mem_cons.1 h).elim .inr fun h => .inl (List.mem_cons_of_mem _ h)
    · obtain rfl | h := List.mem_cons.1 h
      · exact .inl List.mem_cons_self
      · exact (ih h).imp_left (List.mem_cons_of_mem _)

theorem nodup_insertField {fields : List (Text × Json)} (h : (fields.map (·.1)).Nodup) (name : Text)
    (v : Json) : ((Json.insertField fields name v).map (·.1)).Nodup := by
  induction fields with
  | nil => exact List.nodup_singleton name
  | cons g fields ih =>
    obtain ⟨n, w⟩ := g
    obtain ⟨hnew, hfields⟩ := List.nodup_cons.1 h
    rw [Json.insertField]
    split_ifs with hn
    · exact h
    · refine List.nodup_cons.2 ⟨fun hmem => ?_, ih hfields⟩
      obtain ⟨f, hf, heq⟩ := List.mem_map.1 hmem
      obtain hf | rfl := mem_insertField hf
      · exact hnew (heq ▸ List.mem_map_of_mem hf)
      · exact hn heq.symm

theorem countFields_concat (entries : List (Text × Int)) (p : Text × Int) :
    countFields (entries ++ [p]) =
      Json.insertField (countFields entries) (nameText p.1) (.int p.2) := by
  rw [countFields, List.foldl_append]
  rfl

theorem nodup_countFields (entries : List (Text × Int)) :
    ((countFields entries).map (·.1)).Nodup := by
  induction entries using List.reverseRecOn with
  | nil => exact List.nodup_nil
  | append_singleton entries p ih =>
    rw [countFields_concat]
    exact nodup_insertField ih _ _

theorem exists_of_mem_countFields {entries : List (Text × Int)} {f : Text × Json}
    (h : f ∈ countFields entries) : ∃ p ∈ entries, f = (nameText p.1, .int p.2) := by
  induction entries using List.reverseRecOn with
  | nil => cases h
  | append_singleton entries p ih =>
    rw [countFields_concat] at h
    obtain h | rfl := mem_insertField h
    · obtain ⟨q, hq, rfl⟩ := ih h
      exact ⟨q, List.mem_append_left _ hq, rfl⟩
    · exact ⟨p, by simp, rfl⟩

/-- Texts without halves are listed as they are. -/
theorem countFields_of_forall {entries : List (Text × Int)} (hnodup : (entries.map (·.1)).Nodup)
    (h : ∀ t ∈ entries.map (·.1), ∀ c ∈ t, c.isHalf = false) :
    countFields entries = entries.map fun p => (p.1, .int p.2) := by
  induction entries using List.reverseRecOn with
  | nil => rfl
  | append_singleton entries p ih =>
    rw [List.map_append] at hnodup h
    have hnew : p.1 ∉ (entries.map fun p => (p.1, Json.int p.2)).map (·.1) := by
      intro hmem
      rw [List.map_map] at hmem
      exact List.disjoint_of_nodup_append hnodup hmem (by simp)
    rw [countFields_concat, ih hnodup.of_append_left fun t ht => h t (List.mem_append_left _ ht),
      nameText_of_forall (h p.1 (by simp)), Json.insertField_of_notMem hnew, List.map_append]
    rfl

theorem countsData_of_forall {counts : Counts}
    (h : ∀ t ∈ counts.keys, ∀ c ∈ t, c.isHalf = false) :
    countsData counts = .object (counts.entries.map fun p => (p.1, .int p.2)) :=
  congrArg Json.object (countFields_of_forall counts.nodup h)

theorem printable_countsData {counts : Counts}
    (h : ∀ n ∈ counts.entries.map (·.2), (Format.digits n.natAbs).length ≤ 4300) :
    Printable (levels + 1) (countsData counts) := by
  refine .object (nodup_countFields _) (fun f hf => ?_) fun f hf => ?_
  · obtain ⟨p, -, rfl⟩ := exists_of_mem_countFields hf
    exact Text.joined_of_forall (isHalf_nameText p.1)
  · obtain ⟨p, hp, rfl⟩ := exists_of_mem_countFields hf
    exact .int (h p.2 (List.mem_map_of_mem hp))

theorem joined_countsData (counts : Counts) : (countsData counts).joined = countsData counts := by
  rw [countsData, Json.joined_object]
  refine congrArg Json.object ((List.map_congr_left fun f hf => ?_).trans (List.map_id _))
  obtain ⟨p, -, rfl⟩ := exists_of_mem_countFields hf
  rfl

/-! ## Records -/

def recordNames : List String :=
  ["image_tag", "architecture", "os", "os_distro", "size_bytes", "total_layers",
    "supported_architectures", "efficiency_score", "wasted_bytes", "total_packages", "packages",
    "vulnerabilities", "vuln_summary", "scan_timestamp", "warnings", "size_mb",
    "total_vulnerabilities"]

theorem printable_of_statsData (h : s.Recordable) {fields : List (Text × Json)}
    (hfields : statsData s = .ok fields) :
    fields.map (·.1) = recordNames.map Text.ofString ∧
      ∀ f ∈ fields, Printable (levels + 2) f.2 := by
  obtain ⟨size, hsize⟩ := h.size
  simp only [statsData, hsize] at hfields
  obtain rfl := Except.ok.inj hfields
  have hint := h.integers
  simp only [ImageStats.integers, List.forall_mem_append, List.forall_mem_cons] at hint
  obtain ⟨⟨hsizeBytes, hlayers, hwasted, hcount, htotal, -⟩, hcounts⟩ := hint
  refine ⟨rfl, ?_⟩
  simp only [List.forall_mem_cons, field]
  refine ⟨.text _, .text _, .text _, .text _, .int hsizeBytes, .int hlayers,
    printable_array .text, .float _, .int hwasted, .int hcount,
    printable_array printable_packageData, printable_array printable_vulnerabilityData,
    printable_countsData hcounts, ?scanned, printable_array fun _ => .text _, .text _, .int htotal,
    by simp⟩
  cases s.scanned with
  | none => exact .null
  | some t => exact .text _

theorem joined_itemData (i : Item) : (itemData i).joined = itemData i := by
  simp [itemData, Json.joinedField, field]

/-- The record with its texts joined is the record of the joined statistics. -/
theorem statsData_joined {fields : List (Text × Json)} (h : statsData s = .ok fields) :
    statsData s.joined = .ok (fields.map Json.joinedField) := by
  obtain ⟨size, hsize⟩ : ∃ size, s.sizeText = .ok size := by
    cases hsize : s.sizeText with
    | error e =>
      rw [statsData, hsize] at h
      cases h
    | ok size => exact ⟨size, rfl⟩
  have hjoined : s.joined.sizeText = .ok size := hsize
  simp only [statsData, hsize] at h
  obtain rfl := Except.ok.inj h
  simp only [statsData, hjoined]
  refine congrArg Except.ok ?_
  cases hscanned : s.scanned <;>
    simp [ImageStats.joined, Json.joinedField, field, joined_countsData, packageData,
      vulnerabilityData, hscanned, Function.comp_def]

structure ComesBackAs (s : ImageStats) (fields : List (Text × Json)) : Prop where
  joined : statsData s.joined = .ok fields
  unchanged : (∀ t ∈ s.texts, t.joined = t) → statsData s = .ok fields
  counts : (∀ t ∈ s.severityCounts.keys, ∀ c ∈ t, c.isHalf = false) →
    field "vuln_summary" (.object (s.severityCounts.entries.map fun p => (p.1, .int p.2))) ∈ fields

theorem comesBackAs {fields : List (Text × Json)} (h : statsData s = .ok fields) :
    ComesBackAs s (fields.map Json.joinedField) where
  joined := statsData_joined h
  unchanged htexts := by
    rw [← ImageStats.joined_eq_self htexts]
    exact statsData_joined h
  counts hkeys := by
    have hjoined := statsData_joined h
    rw [statsData] at hjoined
    cases hsize : s.joined.sizeText with
    | error e =>
      rw [hsize] at hjoined
      cases hjoined
    | ok size =>
      rw [hsize] at hjoined
      rw [← Except.ok.inj hjoined, ← countsData_of_forall hkeys]
      simp [ImageStats.joined]

/-! ## Reports -/

/-- The data of a report about one image: the items in order, and nothing or the record of the
image. -/
theorem exists_image_of_imageData {items : List Item} {stats : Option ImageStats} {data : Json}
    (h : imageData items stats = .ok data) :
    ∃ image, data = .object [field "items" (.array (items.map itemData)), field "image" image] ∧
      (stats = none → image = .null) ∧
      ∀ s ∈ stats, ∃ fields, statsData s = .ok fields ∧ image = .object fields := by
  cases stats with
  | none =>
    cases h
    exact ⟨.null, rfl, fun _ => rfl, by simp⟩
  | some s =>
    cases hfields : statsData s with
    | error e =>
      simp only [imageData, hfields] at h
      cases h
    | ok fields =>
      simp only [imageData, hfields] at h
      cases h
      refine ⟨.object fields, rfl, by simp, ?_⟩
      rintro s' ⟨⟩
      exact ⟨fields, hfields, rfl⟩

theorem printable_imageData {items : List Item} {stats : Option ImageStats} {data : Json}
    (hstats : ∀ s ∈ stats, s.Recordable) (h : imageData items stats = .ok data) :
    Printable (levels + 4) data := by
  obtain ⟨image, rfl, hnone, hsome⟩ := exists_image_of_imageData h
  refine printable_record ["items", "image"] (by decide) rfl ?_
  have himage : Printable (levels + 3) image := by
    cases stats with
    | none =>
      rw [hnone rfl]
      exact .null
    | some s =>
      obtain ⟨fields, hfields, rfl⟩ := hsome s rfl
      obtain ⟨hnames, hvalues⟩ := printable_of_statsData (hstats s rfl) hfields
      exact printable_record recordNames (by decide) hnames hvalues
  simp only [List.forall_mem_cons, field]
  exact ⟨printable_array printable_itemData, himage, by simp⟩

/-- The data of a comparison: the record of each image in order, with its name first. -/
theorem exists_objects_of_comparisonData {images : List (String × ImageStats)} {data : Json}
    (h : comparisonData images = .ok data) :
    ∃ objects, data = .object [field "images" (.array objects)] ∧
      List.Forall₂ (fun p object => ∃ fields, statsData p.2 = .ok fields ∧
        object = .object (field "name" (.ofString p.1) :: fields)) images objects := by
  obtain ⟨f, hf, hdata⟩ : ∃ f : String × ImageStats → Except Size.SizeError Json,
      (∀ p, f p = do return Json.object (field "name" (.ofString p.1) :: (← statsData p.2))) ∧
      comparisonData images = do return .object [field "images" (.array (← images.mapM f))] :=
    ⟨_, fun _ => rfl, rfl⟩
  rw [hdata] at h
  cases hobjects : images.mapM f with
  | error e =>
    rw [hobjects] at h
    cases h
  | ok objects =>
    rw [hobjects] at h
    cases h
    refine ⟨objects, rfl, (Traversal.forall₂_of_mapM hobjects).imp fun p object hobject => ?_⟩
    rw [hf] at hobject
    cases hfields : statsData p.2 with
    | error e =>
      rw [hfields] at hobject
      cases hobject
    | ok fields =>
      rw [hfields] at hobject
      cases hobject
      exact ⟨fields, rfl, rfl⟩

theorem printable_comparisonData {images : List (String × ImageStats)} {data : Json}
    (hstats : ∀ p ∈ images, p.2.Recordable) (h : comparisonData images = .ok data) :
    Printable (levels + 5) data := by
  obtain ⟨objects, rfl, hobjects⟩ := exists_objects_of_comparisonData h
  have hprintable : ∀ v ∈ objects, Printable (levels + 3) v := by
    intro v hv
    obtain ⟨i, hi, rfl⟩ := List.mem_iff_getElem.1 hv
    have hi' : i < images.length := hobjects.length_eq ▸ hi
    obtain ⟨fields, hfields, hobject⟩ := hobjects.get hi' hi
    obtain ⟨hnames, hvalues⟩ := printable_of_statsData (hstats _ (List.get_mem images ⟨i, hi'⟩))
      hfields
    rw [List.get_eq_getElem] at hobject
    rw [hobject]
    refine printable_record ("name" :: recordNames) (by decide) ?_ ?_
    · rw [List.map_cons, hnames]
      rfl
    · exact List.forall_mem_cons.2 ⟨.text _, hvalues⟩
  refine printable_record ["images"] (by decide) rfl ?_
  simpa [field] using Printable.array hprintable

/-! ## The template for data -/

/-- The template for data prints the report in its printed form, on lines of its own. -/
theorem exists_dataTemplate : ∃ t, Template.ofSegments? Html.data = some t ∧
    ∀ (data : Json) (values : List (String × Value)),
      Scope.find { globals := values } "report" = .ofJson data →
        t.render false values = .ok (Text.ofChars (Json.prettyAt 0 data ++ ['\n'])) := by
  have hprint : Scope.PrintsAll (fun data s => s.find "report" = .ofJson data) false "" false
      Html.data fun data _ => Text.ofString "" ++ (Text.ofChars (Json.prettyAt 0 data) ++
        Text.ofString "\n") := by
    refine .out (Segment.cut_false _) (fun data s hs => ?_) (.first (.nil (Segment.cut_false _)))
    refine ⟨_, Scope.eval_pipe (congrArg Except.ok hs) rfl, ?_⟩
    exact congrArg (fun v => Text.ofChars (Json.prettyAt 0 v)) (Value.toJson_ofJson data)
  obtain ⟨t, ht, hrender⟩ := hprint.exists_template
  refine ⟨t, ht, fun data values hdata => ?_⟩
  rw [hrender data values hdata, Text.ofChars_append]
  rfl

/-- A printed object is written as bytes from which it is read, its texts joined. -/
theorem exists_bytes_of_printable {f : Text × Json} {fields : List (Text × Json)}
    (h : Printable 5 (.object (f :: fields))) :
    ∃ bytes, Encoding.encode
        (Text.ofChars (Json.prettyAt 0 (.object (f :: fields)) ++ ['\n'])) = .ok bytes ∧
      ∀ nesting, Json.read nesting bytes = .ok (.object ((f :: fields).map Json.joinedField)) := by
  refine ⟨_, Encoding.encode_eq_ok_iff.2 ⟨Text.isHalf_ofChars _, rfl⟩, fun nesting => ?_⟩
  rw [Json.read_bytesOf_object h (Nat.le_trans (by decide) nesting.hundred_le), Json.joined_object]

theorem image_reads_back {t : Template}
    (hrender : ∀ (data : Json) (values : List (String × Value)),
      Scope.find { globals := values } "report" = .ofJson data →
        t.render false values = .ok (Text.ofChars (Json.prettyAt 0 data ++ ['\n'])))
    (d : Documentation) (stats : Option ImageStats) (options : ReportOptions)
    (hstats : ∀ s ∈ stats, s.Recordable) :
    ∃ text bytes image, Report.image t .json d stats options = .ok text ∧
      Encoding.encode text = .ok bytes ∧
      (∀ nesting, Json.read nesting bytes = .ok (.object
        [field "items" (.array (d.items.map itemData)), field "image" image])) ∧
      (stats = none → image = .null) ∧
      ∀ s ∈ stats, ∃ fields, ComesBackAs s fields ∧ image = .object fields := by
  obtain ⟨data, hdata⟩ := exists_imageData d.items fun s hs => (hstats s hs).size
  have hprintable : Printable 5 data := printable_imageData hstats hdata
  have htext : Report.image t .json d stats options = .ok _ :=
    image_eq hdata (hrender data (imageValues d stats options data) rfl)
  obtain ⟨image, rfl, hnone, hsome⟩ := exists_image_of_imageData hdata
  obtain ⟨bytes, hbytes, hread⟩ := exists_bytes_of_printable hprintable
  refine ⟨_, bytes, image.joined, htext, hbytes, fun nesting => ?_, fun h => ?_, fun s hs => ?_⟩
  · rw [hread nesting]
    simp [Json.joinedField, field, joined_itemData, Function.comp_def]
  · rw [hnone h]
    rfl
  · obtain ⟨fields, hfields, rfl⟩ := hsome s hs
    exact ⟨_, comesBackAs hfields, Json.joined_object fields⟩

theorem comparison_reads_back {t : Template}
    (hrender : ∀ (data : Json) (values : List (String × Value)),
      Scope.find { globals := values } "report" = .ofJson data →
        t.render false values = .ok (Text.ofChars (Json.prettyAt 0 data ++ ['\n'])))
    {images : List ImageStats} (labels : List String) (options : ReportOptions)
    (hstats : ∀ s ∈ images, s.Recordable) :
    ∃ text bytes objects, Report.comparison t .json images labels options = .ok text ∧
      Encoding.encode text = .ok bytes ∧
      (∀ nesting, Json.read nesting bytes = .ok (.object [field "images" (.array objects)])) ∧
      List.Forall₂ (fun p object => ∃ fields, ComesBackAs p.2 fields ∧
        object = .object (field "name" (.ofString p.1) :: fields))
        (withNames labels images) objects := by
  have hnamed : ∀ p ∈ withNames labels images, p.2.Recordable := fun p hp =>
    hstats _ (of_mem_withNames hp)
  obtain ⟨data, hdata⟩ := exists_comparisonData fun p hp => (hnamed p hp).size
  have hprintable : Printable 5 data := printable_comparisonData hnamed hdata
  have htext : Report.comparison t .json images labels options = .ok _ :=
    comparison_eq hdata
      (hrender data (comparisonValues (withNames labels images) options data) rfl)
  obtain ⟨objects, rfl, hobjects⟩ := exists_objects_of_comparisonData hdata
  obtain ⟨bytes, hbytes, hread⟩ := exists_bytes_of_printable hprintable
  refine ⟨_, bytes, objects.map Json.joined, htext, hbytes, fun nesting => ?_, ?_⟩
  · rw [hread nesting]
    simp [Json.joinedField, field]
  · refine List.forall₂_map_right_iff.2 (hobjects.imp fun p object hobject => ?_)
    obtain ⟨fields, hfields, rfl⟩ := hobject
    refine ⟨_, comesBackAs hfields, ?_⟩
    rw [Json.joined_object, List.map_cons]
    simp [Json.joinedField, field]

/-- A report that the template for data prints is one document, and reading it gives the report: the
items in order, and nothing or the record of the image; in a comparison the record of each image in
order, with its name first. A record comes back as it is, but for neighbouring halves of a surrogate
pair, which are joined, and for halves in the severities that are counted. -/
theorem data_reads_back :
    (∃ t, builtinTemplate "json" .image = .ok t ∧
      ∀ (d : Documentation) (stats : Option ImageStats) (options : ReportOptions),
        (∀ s ∈ stats, s.Recordable) →
        ∃ text bytes image, Report.image t .json d stats options = .ok text ∧
          Encoding.encode text = .ok bytes ∧
          (∀ nesting, Json.read nesting bytes = .ok (.object
            [field "items" (.array (d.items.map itemData)), field "image" image])) ∧
          (stats = none → image = .null) ∧
          ∀ s ∈ stats, ∃ fields, ComesBackAs s fields ∧ image = .object fields) ∧
    ∃ t, builtinTemplate "json" .comparison = .ok t ∧
      ∀ (images : List ImageStats) (labels : List String) (options : ReportOptions),
        (∀ s ∈ images, s.Recordable) →
        ∃ text bytes objects, Report.comparison t .json images labels options = .ok text ∧
          Encoding.encode text = .ok bytes ∧
          (∀ nesting, Json.read nesting bytes = .ok (.object [field "images" (.array objects)])) ∧
          List.Forall₂ (fun p object => ∃ fields, ComesBackAs p.2 fields ∧
            object = .object (field "name" (.ofString p.1) :: fields))
            (withNames labels images) objects := by
  obtain ⟨t, ht, hrender⟩ := exists_dataTemplate
  exact ⟨⟨t, builtinTemplate_eq rfl ht, fun d stats options h =>
      image_reads_back hrender d stats options h⟩,
    t, builtinTemplate_eq rfl ht, fun _ labels options h =>
      comparison_reads_back hrender labels options h⟩

/-- Texts with quotes, backslashes, control characters, markup and characters beyond sixteen bits
come back. -/
theorem data_reads_back_of_marks :
    let stats : ImageStats :=
      { imageTag := "a\"b\\c", os := Text.ofString "<&>\n\u0001", sizeBytes := -1,
        platforms := [Text.ofString "😀"],
        severityCounts := .ofList [Text.ofString "High"], warnings := ["\u20AC"] }
    (∃ t text bytes image, builtinTemplate "json" .image = .ok t ∧
      Report.image t .json ⟨[⟨"A\"", .arg, "😀", "\t", true⟩]⟩ (some stats) {} = .ok text ∧
      Encoding.encode text = .ok bytes ∧
      Json.read .usual bytes = .ok (.object [field "items"
        (.array [itemData ⟨"A\"", .arg, "😀", "\t", true⟩]), field "image" image]) ∧
      ∃ fields, statsData stats = .ok fields ∧ image = .object fields) ∧
    ∃ t text bytes fields, builtinTemplate "json" .comparison = .ok t ∧
      Report.comparison t .json [stats] [""] {} = .ok text ∧ Encoding.encode text = .ok bytes ∧
      statsData stats = .ok fields ∧
      Json.read .usual bytes = .ok (.object [field "images"
        (.array [.object (field "name" (.ofString "a\"b\\c") :: fields)])]) := by
  intro stats
  have hstats : stats.Recordable := ⟨⟨"-0.00 MB", by decide⟩, by decide⟩
  have htexts : ∀ t ∈ stats.texts, t.joined = t := by decide
  obtain ⟨⟨t, ht, himage⟩, t', ht', hcomparison⟩ := data_reads_back
  constructor
  · obtain ⟨text, bytes, image, htext, hbytes, hread, -, hsome⟩ :=
      himage ⟨[⟨"A\"", .arg, "😀", "\t", true⟩]⟩ (some stats) {} (by rintro s ⟨⟩; exact hstats)
    obtain ⟨fields, hfields, hobject⟩ := hsome stats rfl
    exact ⟨t, text, bytes, image, ht, htext, hbytes, hread .usual, fields, hfields.unchanged htexts,
      hobject⟩
  · obtain ⟨text, bytes, objects, htext, hbytes, hread, hobjects⟩ :=
      hcomparison [stats] [""] {} (by simpa using hstats)
    obtain - | ⟨hobject, hrest⟩ := hobjects
    cases hrest
    obtain ⟨fields, hfields, rfl⟩ := hobject
    exact ⟨t', text, bytes, fields, ht', htext, hbytes, hfields.unchanged htexts, hread .usual⟩

/-- Two halves of a surrogate pair come back as one character, and a half in a severity as other
characters. -/
theorem data_changes_halves :
    let stats : ImageStats :=
      { imageTag := "app:1", os := [CodePoint.ofNat 0xD83D, CodePoint.ofNat 0xDE00],
        severityCounts := .ofList [[CodePoint.ofNat 0xD800]] }
    stats.Recordable ∧ ∃ t text bytes fields, builtinTemplate "json" .image = .ok t ∧
      Report.image t .json ⟨[]⟩ (some stats) {} = .ok text ∧ Encoding.encode text = .ok bytes ∧
      Json.read .usual bytes = .ok (.object
        [field "items" (.array []), field "image" (.object fields)]) ∧
      Json.lookup fields (Text.ofString "os") = some (.ofString "😀") ∧
      Json.lookup fields (Text.ofString "vuln_summary") =
        some (.object [(Text.ofString "\uFFFD\uFFFD\uFFFD", .int 1)]) := by
  intro stats
  have hsize : stats.joined.sizeText = .ok "0.00 MB" := by decide +kernel
  have hstats : stats.Recordable := ⟨⟨"0.00 MB", by decide +kernel⟩, by decide +kernel⟩
  obtain ⟨t, ht, hrender⟩ := exists_dataTemplate
  obtain ⟨text, bytes, image, htext, hbytes, hread, -, hsome⟩ :=
    image_reads_back hrender ⟨[]⟩ (some stats) {} (by rintro s ⟨⟩; exact hstats)
  obtain ⟨fields, hfields, rfl⟩ := hsome stats rfl
  refine ⟨hstats, t, text, bytes, fields, builtinTemplate_eq rfl ht, htext, hbytes,
    hread .usual, ?_⟩
  have hjoined := hfields.joined
  rw [statsData, hsize] at hjoined
  have hpair : stats.joined.os = Text.ofString "😀" := by decide
  have hcounts : countsData stats.joined.severityCounts =
      .object [(Text.ofString "\uFFFD\uFFFD\uFFFD", .int 1)] := by
    have hentries : stats.joined.severityCounts.entries = [([CodePoint.ofNat 0xD800], 1)] := by
      decide
    have hname : nameText [CodePoint.ofNat 0xD800] = Text.ofString "\uFFFD\uFFFD\uFFFD" := by decide
    rw [countsData, hentries, ← hname]
    rfl
  rw [← Except.ok.inj hjoined, hpair, hcounts]
  simp [Json.lookup, field, ofString_injective.eq_iff, Json.ofString]

end Report
end ContainerDocs
