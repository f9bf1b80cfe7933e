import ContainerDocs.Proofs.Image.Counts
import ContainerDocs.Proofs.Image.Order
import ContainerDocs.Proofs.Image.Size
import ContainerDocs.Proofs.Report.Data
import ContainerDocs.Proofs.Report.Html
import ContainerDocs.Proofs.Report.ItemTables
import ContainerDocs.Proofs.Report.Rendered

/-!
# Images that can be shown

A built-in template prints a report about every Dockerfile and every image, but for two things that
have no printed form: a size that is too large, and, where texts of tools are printed, half a
surrogate pair in one of them.

## Main definitions

* `Builtin.verbose` — the templates that print texts of tools.
* `Builtin.CanShow` — the statistics that a built-in template can show.
* `Builtin.Shows` — a template prints a report about every image that can be shown.

## Main statements

* `Report.isWhole_imageValues` — the values of a report are whole if the texts of its image are.
* `Markdown.isWhole_minimalReport`, `Markdown.isWhole_compactReport` — reports without such texts.
* `Builtin.CanShow.merge`, `Builtin.CanShow.finalize` — what is merged of statistics that can be
  shown can be shown.
* `Builtin.exists_template` — each built-in template shows what it can show.
-/

namespace ContainerDocs

/-! ## Values of reports -/

namespace Report

open Value

/-- The names of the fields of a record are strings, so they are whole. -/
theorem isWhole_record {fields : List (Text × Json)} (names : List String)
    (heq : fields.map (·.1) = names.map Text.ofString) (h : ∀ f ∈ fields, (ofJson f.2).IsWhole) :
    (ofJson (.object fields)).IsWhole := by
  refine isWhole_ofJson_object fun f hf => ⟨?_, h f hf⟩
  have hmem := List.mem_map_of_mem (f := (·.1)) hf
  rw [heq] at hmem
  obtain ⟨name, -, hname⟩ := List.mem_map.1 hmem
  rw [← hname]
  exact Text.isWhole_ofString name

theorem isWhole_array {α : Type} {as : List α} {data : α → Json}
    (h : ∀ a ∈ as, (ofJson (data a)).IsWhole) : (ofJson (.array (as.map data))).IsWhole := by
  refine isWhole_ofJson_array fun v hv => ?_
  obtain ⟨a, ha, rfl⟩ := List.mem_map.1 hv
  exact h a ha

theorem isWhole_itemData (i : Item) : (ofJson (itemData i)).IsWhole := by
  refine isWhole_record ["name", "type", "description", "value", "required"] rfl ?_
  simp only [List.forall_mem_cons, field]
  exact ⟨isWhole_ofString _, isWhole_ofString _, isWhole_ofString _, isWhole_ofString _, .bool _,
    List.forall_mem_nil _⟩

theorem isWhole_packageData {p : Package} (h : p.name.IsWhole ∧ p.version.IsWhole) :
    (ofJson (packageData p)).IsWhole := by
  refine isWhole_record ["name", "version"] rfl ?_
  simp only [List.forall_mem_cons, field]
  exact ⟨isWhole_plain h.1, isWhole_plain h.2, List.forall_mem_nil _⟩

theorem isWhole_vulnerabilityData {v : Vulnerability}
    (h : v.id.IsWhole ∧ v.severity.IsWhole ∧ v.package.IsWhole ∧ v.version.IsWhole) :
    (ofJson (vulnerabilityData v)).IsWhole := by
  refine isWhole_record ["id", "severity", "package", "version"] rfl ?_
  simp only [List.forall_mem_cons, field]
  exact ⟨isWhole_plain h.1, isWhole_plain h.2.1, isWhole_plain h.2.2.1, isWhole_plain h.2.2.2,
    List.forall_mem_nil _⟩

theorem isWhole_statsData {s : ImageStats} (h : s.IsWhole) {fields : List (Text × Json)}
    (hfields : statsData s = .ok fields) : (ofJson (.object fields)).IsWhole := by
  obtain ⟨⟨harchitecture, hos, hdistribution⟩, hplatforms, hpackages, hvulnerabilities, hcounts⟩ :=
    ImageStats.isWhole_iff.1 h
  cases hsize : s.sizeText with
  | error e =>
    simp only [statsData, hsize] at hfields
    cases hfields
  | ok size =>
    simp only [statsData, hsize] at hfields
    obtain rfl := Except.ok.inj hfields
    refine isWhole_record recordNames rfl ?_
    simp only [List.forall_mem_cons, field]
    refine ⟨isWhole_ofString _, isWhole_plain harchitecture, isWhole_plain hos,
      isWhole_plain hdistribution, .int _, .int _,
      isWhole_array fun p hp => isWhole_plain (hplatforms p hp), .float _, .int _, .int _,
      isWhole_array fun p hp => isWhole_packageData (hpackages p hp),
      isWhole_array fun v hv => isWhole_vulnerabilityData (hvulnerabilities v hv), ?counts,
      ?scanned, isWhole_array fun w _ => isWhole_ofString w, isWhole_ofString _, .int _,
      List.forall_mem_nil _⟩
    case counts =>
      refine isWhole_ofJson_object fun f hf => ?_
      obtain ⟨c, -, rfl⟩ := exists_of_mem_countFields hf
      exact ⟨isHalf_nameText c.1, .int c.2⟩
    case scanned =>
      cases s.scanned with
      | none => exact .null
      | some t => exact isWhole_ofString _

theorem isWhole_imageData {items : List Item} {stats : Option ImageStats} {data : Json}
    (hstats : ∀ s ∈ stats, s.IsWhole) (h : imageData items stats = .ok data) :
    (ofJson data).IsWhole := by
  obtain ⟨image, rfl, hnone, hsome⟩ := exists_image_of_imageData h
  refine isWhole_record ["items", "image"] rfl ?_
  simp only [List.forall_mem_cons, field]
  refine ⟨isWhole_array fun i _ => isWhole_itemData i, ?_, List.forall_mem_nil _⟩
  cases stats with
  | none =>
    rw [hnone rfl]
    exact .null
  | some s =>
    obtain ⟨fields, hfields, rfl⟩ := hsome s rfl
    exact isWhole_statsData (hstats s rfl) hfields

/-- The values of a report about an image with whole texts are whole. -/
theorem isWhole_imageValues {d : Documentation} {stats : Option ImageStats}
    {options : ReportOptions} {data : Json} (hstats : ∀ s ∈ stats, s.IsWhole)
    (h : imageData d.items stats = .ok data) :
    ∀ f ∈ imageValues d stats options data, f.2.IsWhole := by
  have hitems : ∀ is : List Item, (Value.list (is.map .item)).IsWhole :=
    fun is => isWhole_list_map fun i _ => .item i
  simp only [imageValues, commonValues, List.forall_mem_append, List.forall_mem_cons]
  refine ⟨⟨hitems _, hitems _, hitems _, hitems _, hitems _, ?stats, isWhole_ofString _,
    List.forall_mem_nil _⟩, .options options, ?severities, isWhole_imageData hstats h,
    List.forall_mem_nil _⟩
  case stats =>
    cases stats with
    | none => exact .null
    | some s => exact .stats (hstats s rfl)
  case severities =>
    refine isWhole_texts fun t ht => ?_
    obtain ⟨severity, -, rfl⟩ := List.mem_map.1 ht
    exact Text.isWhole_ofString severity

end Report

/-! ## Reports without texts of tools -/

namespace Markdown

open Text Parts

theorem isWhole_number (n : Int) : (number n).IsWhole := isWhole_ofChars _

theorem isWhole_minimalCells (i : Item) : ∀ cell ∈ minimalCells i, cell.IsWhole := by
  simp only [minimalCells, List.forall_mem_cons]
  exact ⟨Cell.isWhole_code (isWhole_ofString _), Cell.isWhole_plain (isWhole_ofString _),
    Cell.isWhole_code (isWhole_ofString _), List.forall_mem_nil _⟩

theorem isWhole_imageLine (a : Analyzed) : (imageLine a).IsWhole := by
  simp only [imageLine, isWhole_append, isWhole_ofString, isWhole_number, and_self]

theorem isWhole_line {cells : List Text} (h : ∀ cell ∈ cells, cell.IsWhole) :
    (line cells).IsWhole := by
  rw [line_eq, isWhole_cons]
  exact ⟨rfl, ((isWhole_ofString _).append (isWhole_join (isWhole_ofString _) h)).append
    (isWhole_ofString _)⟩

theorem isWhole_minimalReport (r : ImageReport) : (minimalReport r).IsWhole := by
  have hlines := isWhole_flatMap fun i (_ : i ∈ r.doc.items) =>
    isWhole_line (isWhole_minimalCells i)
  refine (((isWhole_ofString _).append hlines).append ?_).append (isWhole_ofString _)
  cases r.analyzed with
  | none => exact isWhole_nil
  | some a => exact isWhole_imageLine a

theorem isWhole_bullet (i : Item) : (bullet i).IsWhole := by
  have hoptional : ∀ (shown : Bool) {t : Text}, t.IsWhole →
      Text.IsWhole (if shown then t else []) := by
    intro shown t ht
    cases shown with
    | false => exact isWhole_nil
    | true => exact ht
  have hcode : ∀ s : String, (Cell.code s).IsWhole :=
    fun s => Cell.isWhole_code (isWhole_ofString s)
  simp only [bullet, isWhole_append, isWhole_ofString, hcode, true_and, and_true]
  exact ⟨hoptional _ ((isWhole_ofString _).append (hcode _)), hoptional _ (isWhole_ofString _),
    hoptional _ ((isWhole_ofString _).append (isWhole_ofString _))⟩

theorem isWhole_compactLine (a : Analyzed) : a.compactLine.IsWhole := by
  have hcounts : a.countsText.IsWhole := by
    refine isWhole_flatMap fun p hp => ?_
    have hseverity : p.1.IsWhole := by
      obtain ⟨severity, -, hseverity⟩ := List.mem_map.1
        (List.mem_of_mem_take (List.fst_mem_of_mem_zipIdx hp))
      rw [← hseverity]
      exact isWhole_ofString severity
    have hfirst := hseverity.of_subset (List.take_subset 1 p.1)
    refine ((hfirst.append (isWhole_ofString _)).append (isWhole_number _)).append ?_
    split_ifs
    · exact isWhole_nil
    · exact isWhole_ofString _
  simp only [Analyzed.compactLine, isWhole_append, isWhole_ofString, isWhole_number, hcounts,
    and_self]

theorem isWhole_compactReport (r : ImageReport) : (compactReport r).IsWhole := by
  refine ((isWhole_flatMap fun i _ => isWhole_bullet i).append ?_).append (isWhole_ofString _)
  cases r.analyzed with
  | none => exact isWhole_nil
  | some a => exact isWhole_compactLine a

end Markdown

/-! ## Statistics that can be shown -/

namespace ImageStats

variable {s t : ImageStats}

theorem orKeep_cases {α : Type} {P : α → Prop} {isEmpty : α → Bool} {new old : α} (hnew : P new)
    (hold : P old) : P (orKeep isEmpty new old) := by
  rw [orKeep]
  split_ifs
  · exact hold
  · exact hnew

theorem natAbs_orKeep_lt {n : Nat} {new old : Int} (hnew : new.natAbs < n) (hold : old.natAbs < n) :
    (orKeep (· == 0) new old).natAbs < n :=
  orKeep_cases (P := fun k : Int => k.natAbs < n) hnew hold

theorem forall_mem_keys_addEach {P : Text → Prop} {counts : Counts} {entries : List (Text × Int)}
    (hcounts : ∀ t ∈ counts.keys, P t) (hentries : ∀ t ∈ entries.map (·.1), P t) :
    ∀ t ∈ (counts.addEach entries).keys, P t := by
  induction entries generalizing counts with
  | nil => exact hcounts
  | cons entry entries ih =>
    obtain ⟨hentry, hentries⟩ := List.forall_mem_cons.1 hentries
    refine ih (fun t ht => ?_) hentries
    obtain rfl | hmem := Counts.mem_keys_add.1 ht
    · exact hentry
    · exact hcounts t hmem

/-- Merging takes texts of both sides only. -/
theorem IsWhole.merge (hs : s.IsWhole) (ht : t.IsWhole) : (s.merge t).IsWhole := by
  obtain ⟨⟨harchitecture, hos, hdistribution⟩, hplatforms, hpackages, hvulnerabilities, hcounts⟩ :=
    isWhole_iff.1 hs
  obtain ⟨⟨harchitecture', hos', hdistribution'⟩, hplatforms', hpackages', hvulnerabilities',
    hcounts'⟩ := isWhole_iff.1 ht
  refine isWhole_iff.2 ⟨⟨orKeep_cases harchitecture' harchitecture, orKeep_cases hos' hos,
    orKeep_cases hdistribution' hdistribution⟩, ?_,
    List.forall_mem_append.2 ⟨hpackages, hpackages'⟩,
    List.forall_mem_append.2 ⟨hvulnerabilities, hvulnerabilities'⟩,
    forall_mem_keys_addEach hcounts hcounts'⟩
  rw [ImageStats.merge]
  dsimp only
  split_ifs
  · exact hplatforms
  · intro p hp
    exact (List.mem_append.1 (Ordered.mem_distinct.1 hp)).elim (hplatforms p) (hplatforms' p)

theorem IsWhole.finalize (h : s.IsWhole) : s.finalize.IsWhole := by
  obtain ⟨hnames, hplatforms, hpackages, hvulnerabilities, hcounts⟩ := isWhole_iff.1 h
  refine isWhole_iff.2 ⟨hnames, hplatforms, fun p hp => ?_, fun v hv => ?_, hcounts⟩
  · exact hpackages p (Package.mem_sorted.1 hp)
  · exact hvulnerabilities v (List.mem_mergeSort.1 hv)

end ImageStats

namespace Builtin

/-- The templates that print texts of tools and what is wasted in an image. -/
def verbose : List String := ["default", "detailed", "html"]

/-- What a built-in template can show of an image. The size of the image is below the limit. Where
the template prints texts of tools and what is wasted in the image, the texts are whole, and what is
wasted is below the limit, too. -/
structure CanShow (b : Builtin) (s : ImageStats) : Prop where
  size : s.sizeBytes.natAbs < Size.limit
  wasted : b.name ∈ verbose → s.wastedBytes.natAbs < Size.limit
  texts : b.name ∈ verbose → s.IsWhole

variable {b : Builtin} {s t : ImageStats}

theorem CanShow.start (b : Builtin) (image : String) : b.CanShow { imageTag := image } where
  size := Size.limit_pos
  wasted _ := Size.limit_pos
  texts _ := ImageStats.isWhole_iff.2 (by simp [Counts.keys, Counts.empty])

theorem CanShow.merge (hs : b.CanShow s) (ht : b.CanShow t) : b.CanShow (s.merge t) where
  size := ImageStats.natAbs_orKeep_lt ht.size hs.size
  wasted h := ImageStats.natAbs_orKeep_lt (ht.wasted h) (hs.wasted h)
  texts h := (hs.texts h).merge (ht.texts h)

theorem CanShow.finalize (h : b.CanShow s) : b.CanShow s.finalize where
  size := h.size
  wasted := h.wasted
  texts hverbose := (h.texts hverbose).finalize

/-! ## Built-in templates -/

open Report

def Shows (b : Builtin) (t : Template) : Prop :=
  ∀ d s options data, b.CanShow s → imageData d.items (some s) = .ok data →
    ∃ text, t.render (b.format == .html) (imageValues d (some s) options data) = .ok text ∧
      text.IsWhole

theorem isWhole_segments : all.all (fun b => b.image.all Segment.isWhole) = true := by decide

variable {template : Template}

/-- What a template prints about whole texts is whole. -/
theorem shows_of_render (hb : b ∈ all) (hverbose : b.name ∈ verbose)
    (ht : Template.ofSegments? (b.segments .image) = some template)
    (h : ∀ d s options data, b.CanShow s → imageData d.items (some s) = .ok data → ∃ text,
      template.render (b.format == .html) (imageValues d (some s) options data) = .ok text) :
    b.Shows template := by
  intro d s options data hs hdata
  obtain ⟨text, htext⟩ := h d s options data hs hdata
  have hsegments := List.all_eq_true.1 (List.all_eq_true.1 isWhole_segments b hb)
  have hnodes := Template.allWhole_of_segments hsegments ht
  have hstats : ∀ s' ∈ some s, s'.IsWhole := by
    rintro s' ⟨⟩
    exact hs.texts hverbose
  exact ⟨text, htext, Template.isWhole_render hnodes (isWhole_imageValues hstats hdata) htext⟩

section Markdown

variable {ω : Type} {need : Markdown.ImageReport → Except Fault ω}
  {text : Markdown.ImageReport → ω → Text} (hformat : b.format = .markdown)
  (h : ∀ (r : Markdown.ImageReport) data,
    template.render false (imageValues r.doc r.stats r.options data) = (need r).map (text r))
include hformat h

/-- A Markdown template prints its text about an image once what it needs is there. -/
theorem render_markdown (hs : b.CanShow s) (d : Documentation) (options : ReportOptions)
    (data : Json) : ∃ a : Markdown.Sized, a.stats = s ∧ ∀ w, need ⟨d, some a, options⟩ = .ok w →
      template.render (b.format == .html) (imageValues d (some s) options data) =
        .ok (text ⟨d, some a, options⟩ w) := by
  obtain ⟨size, hsize⟩ := Size.exists_megabytes_iff.2 hs.size
  refine ⟨⟨s, size, hsize⟩, rfl, fun w hw => ?_⟩
  rw [hformat]
  exact (h ⟨d, some ⟨s, size, hsize⟩, options⟩ data).trans (by rw [hw]; rfl)

/-- A Markdown template without texts of tools prints a whole text. -/
theorem shows_terse (hneed : ∀ r, ∃ w, need r = .ok w)
    (hwhole : ∀ r w, (text r w).IsWhole) : b.Shows template := by
  intro d s options data hs _
  obtain ⟨a, -, hrender⟩ := render_markdown hformat h hs d options data
  obtain ⟨w, hw⟩ := hneed ⟨d, some a, options⟩
  exact ⟨_, hrender w hw, hwhole _ _⟩

end Markdown

/-- A Markdown template prints what is wasted below the limit. -/
theorem shows_verbose {text : Markdown.ImageReport → String → Text} (hb : b ∈ all)
    (hverbose : b.name ∈ verbose) (hformat : b.format = .markdown)
    (ht : Template.ofSegments? (b.segments .image) = some template)
    (h : ∀ (r : Markdown.ImageReport) data, template.render false
      (imageValues r.doc r.stats r.options data) = r.wasted.map (text r)) :
    b.Shows template := by
  refine shows_of_render hb hverbose ht fun d s options data hs _ => ?_
  obtain ⟨a, rfl, hrender⟩ := render_markdown hformat h hs d options data
  obtain ⟨w, hw⟩ : ∃ w, a.stats.wastedText = .ok w :=
    Size.exists_megabytes_iff.2 (hs.wasted hverbose)
  refine ⟨_, hrender w ?_⟩
  change Markdown.Sized.wasted a = _
  rw [Markdown.Sized.wasted, hw]

/-- The page of an image is printed. -/
theorem exists_htmlTemplate : ∃ t, Template.ofSegments? Html.image = some t ∧
    ∀ d s options data, s.HasSizes →
      ∃ text, t.render true (imageValues d (some s) options data) = .ok text := by
  obtain ⟨page, hpage, halike⟩ := Html.alike_image
  obtain ⟨t, ht, hprint⟩ := Html.exists_page hpage halike
  refine ⟨t, ht, fun d s options data hs => ?_⟩
  have hsizes : ∀ s' ∈ some s, s'.HasSizes := by
    rintro s' ⟨⟩
    exact hs
  let values := imageValues d (some s) options data
  have hsees : Html.SeesImage (Html.pageScope "Docker Image Documentation" values)
      (Html.pageScope "Docker Image Documentation" values) :=
    Html.seesImage (List.forall₂_same.2 fun _ _ => rfl) (.some ⟨rfl, rfl, rfl, rfl⟩) hsizes hsizes _
  obtain ⟨text, -, htext, -⟩ := hprint _ _ hsees
  exact ⟨text, htext⟩

/-- Every built-in template prints a report about an image that it can show. -/
theorem exists_template {name : String} (hb : find? name = some b) :
    ∃ t, Template.ofSegments? (b.segments .image) = some t ∧ b.Shows t := by
  have hall : b ∈ all := List.mem_of_find?_eq_some hb
  have hcases := hall
  simp only [all, List.mem_cons, List.not_mem_nil, or_false] at hcases
  obtain rfl | rfl | rfl | rfl | rfl | rfl := hcases
  case inl =>
    obtain ⟨t, ht, hrender⟩ := Markdown.prints_defaultImage.exists_template
    exact ⟨t, ht, shows_verbose hall (by decide) rfl ht
      fun r data => hrender r _ (Markdown.sees_imageValues r data)⟩
  case inr.inl =>
    obtain ⟨t, ht, hrender⟩ := Markdown.prints_minimalImage.exists_template
    exact ⟨t, ht, shows_terse rfl
      (fun r data => hrender r _ (Markdown.sees_imageValues r data)) (fun _ => ⟨(), rfl⟩)
      fun r _ => Markdown.isWhole_minimalReport r⟩
  case inr.inr.inl =>
    obtain ⟨t, ht, hrender⟩ := Markdown.exists_detailedTemplate
    exact ⟨t, ht, shows_verbose hall (by decide) rfl ht hrender⟩
  case inr.inr.inr.inl =>
    obtain ⟨t, ht, hrender⟩ := Markdown.prints_compactImage.exists_template
    exact ⟨t, ht, shows_terse rfl
      (fun r data => hrender r _ (Markdown.sees_imageValues r data)) (fun _ => ⟨(), rfl⟩)
      fun r _ => Markdown.isWhole_compactReport r⟩
  case inr.inr.inr.inr.inl =>
    obtain ⟨t, ht, hrender⟩ := exists_htmlTemplate
    refine ⟨t, ht, shows_of_render hall (by decide) ht fun d s options data hs _ => ?_⟩
    exact hrender d s options data
      ⟨Size.exists_megabytes_iff.2 hs.size, Size.exists_megabytes_iff.2 (hs.wasted (by decide))⟩
  case inr.inr.inr.inr.inr =>
    obtain ⟨t, ht, hrender⟩ := exists_dataTemplate
    exact ⟨t, ht, fun d s options data _ _ =>
      ⟨_, hrender data _ rfl, Text.isWhole_ofChars _⟩⟩

end Builtin
end ContainerDocs
