import ContainerDocs.Proofs.Report.ImageText
import ContainerDocs.Proofs.Report.Render
import ContainerDocs.Proofs.Report.Tables

/-!
# Items in the tables of reports

Every item of a documentation is exactly one row of a table, and so is every vulnerability and every
package of an image, whatever stands in their texts.

## Main definitions

* `Markdown.defaultTables`, `Markdown.minimalTable`, `Markdown.detailedTables` — the tables of a
  report.
* `Markdown.Reports` — a report shows tables, unless a size that it prints is too large.

## Main statements

* `Markdown.image_tables` — the reports about one image show these tables.
-/

namespace ContainerDocs
namespace Markdown

open Parts

/-! ## The tables of reports -/

def Table.bare (columns : List String) : Table := ⟨columns, [], List.forall_mem_nil _⟩

/-- A table with a row for each element of a list, if there are any. -/
def tableOf {α : Type} (columns : List String) (cells : α → List Text)
    (hcells : ∀ a, (cells a).length = columns.length) (as : List α) : List Table :=
  if as.isEmpty then []
  else [⟨columns, as.map cells, List.forall_mem_map.2 fun a _ => hcells a⟩]

def analysisTables (s : ImageStats) : List Table :=
  tableOf ["ID", "Severity", "Package", "Version"] Analyzed.vulnerabilityCells (fun _ => rfl)
    s.vulnerabilities ++
  tableOf ["Package", "Version"] Analyzed.packageCells (fun _ => rfl) s.packages

/-- The tables of the default template: the items, and those of the analysis. -/
def defaultTables (noSymbols : Bool) (d : Documentation) (stats : Option ImageStats) : List Table :=
  tableOf ["Name", "Type", "Description", "Default", "Required"] (defaultCells noSymbols)
    (fun _ => rfl) d.items ++
  stats.elim [] analysisTables

def minimalTable (d : Documentation) : Table where
  columns := ["Name", "Description", "Default"]
  rows := d.items.map minimalCells
  rectangular := List.forall_mem_map.2 fun _ _ => rfl

def itemsOfKind (d : Documentation) (k : Kind) : List Item := d.items.filter (·.kind = k)

/-- The tables of the detailed template: one for each kind of items, and those of the analysis. -/
def detailedTables (noSymbols : Bool) (d : Documentation) (stats : Option ImageStats) :
    List Table :=
  ([Kind.arg, Kind.env, Kind.label].flatMap fun k =>
    tableOf ["Name", "Description", "Default", "Required"] (detailedCells noSymbols) (fun _ => rfl)
      (itemsOfKind d k)) ++
  tableOf ["Port", "Description"] portCells (fun _ => rfl) (itemsOfKind d .expose) ++
  stats.elim [] analysisTables

/-! ### Tables as text -/

section Carries

variable {α : Type} {columns : List String} {cells : α → List Text}
  {as : List α} {lit title : Text}

/-- Columns whose names stay inside the header, and rows whose cells stay inside their places. -/
structure Sound (columns : List String) (cells : α → List Text) : Prop where
  ne_nil : columns ≠ []
  names : ∀ name ∈ columns, IsCell (Text.ofString name)
  cells : ∀ a, ∀ cell ∈ cells a, IsCell cell

/-- A text that ends with the head of a table below a title. -/
def EndsWithHead (lit title : Text) (columns : List String) : Prop :=
  lit = title ++ CodePoint.ofChar '\n' :: (Table.bare columns).head

/-- A text that ends with the head of a table, and rows below it. -/
theorem carries_rows (h : Sound columns cells) (hcells : ∀ a, (cells a).length = columns.length)
    (hlit : EndsWithHead lit title columns)
    (as : List α) (t : Text) :
    Carries [⟨columns, as.map cells, List.forall_mem_map.2 fun a _ => hcells a⟩]
      (t ++ lit ++ as.flatMap fun a => line (cells a)) := by
  have hsound :
      Table.IsSound ⟨columns, as.map cells, List.forall_mem_map.2 fun a _ => hcells a⟩ :=
    ⟨h.ne_nil, h.names, List.forall_mem_map.2 fun a _ => h.cells a⟩
  have hcarries := carries_table hsound (t ++ title)
  rw [EndsWithHead] at hlit
  simpa [hlit, Table.bare, Table.text, Table.head, Table.header, Table.rule, List.flatMap_map]
    using hcarries

/-- The same for a table that is left out without rows. -/
theorem carries_tableOf {hcells : ∀ a, (cells a).length = columns.length}
    (h : Sound columns cells)
    (hlit : EndsWithHead lit title columns)
    (hne : as ≠ []) (t : Text) :
    Carries (tableOf columns cells hcells as)
      (t ++ lit ++ as.flatMap fun a => line (cells a)) := by
  rw [tableOf, if_neg (by simpa using hne)]
  exact carries_rows h hcells hlit as t

/-- A text that starts with a blank line. -/
theorem exists_starts (cs : List Char) (t : Text) :
    ∃ r, Text.ofString (String.ofList ('\n' :: '\n' :: cs)) ++ t =
      CodePoint.ofChar '\n' :: CodePoint.ofChar '\n' :: r := by
  rw [Text.ofString, String.toList_ofList]
  exact ⟨_, rfl⟩

/-- A text without tables below a blank line. -/
theorem block_starts (cs : List Char) (t : Text) :
    Block [] (Text.ofString (String.ofList ('\n' :: '\n' :: cs)) ++ t) :=
  ⟨carries_nil _, .inr (exists_starts cs t)⟩

theorem block_ofString (cs : List Char) :
    Block [] (Text.ofString (String.ofList ('\n' :: '\n' :: cs))) := by
  have hblock := block_starts cs []
  rwa [List.append_nil] at hblock

end Carries

/-- What the templates print in front of the rows of their tables: of vulnerabilities, of packages,
of items in the default, the minimal and the detailed template, and of ports. -/
theorem heads :
    EndsWithHead (Text.ofString ("</summary>\n\n| ID | Severity | Package | Version |\n" ++
      "|----|----------|---------|---------|")) (Text.ofString "</summary>\n")
      ["ID", "Severity", "Package", "Version"] ∧
    EndsWithHead
      (Text.ofString " total)</summary>\n\n| Package | Version |\n|---------|---------|")
      (Text.ofString " total)</summary>\n") ["Package", "Version"] ∧
    EndsWithHead (Text.ofString ("\n| Name | Type | Description | Default | Required |\n" ++
      "|------|------|-------------|---------|----------|")) []
      ["Name", "Type", "Description", "Default", "Required"] ∧
    EndsWithHead (CodePoint.ofChar '\n' ::
      Text.ofString "| Name | Description | Default |\n|------|-------------|---------|") []
      ["Name", "Description", "Default"] ∧
    EndsWithHead (Text.ofString ("\n\n| Name | Description | Default | Required |\n" ++
      "|------|-------------|---------|----------|")) (Text.ofString "\n")
      ["Name", "Description", "Default", "Required"] ∧
    EndsWithHead
      (Text.ofString "\n\n### Exposed Ports\n\n| Port | Description |\n|------|-------------|")
      (Text.ofString "\n\n### Exposed Ports\n") ["Port", "Description"] := by
  simp only [EndsWithHead]
  decide +kernel

/-! ### The analysis -/

theorem sound_vulnerabilities :
    Sound ["ID", "Severity", "Package", "Version"] Analyzed.vulnerabilityCells where
  ne_nil := List.cons_ne_nil _ _
  names := by
    simp only [List.forall_mem_cons, List.not_mem_nil, false_implies, implies_true, and_true]
    exact ⟨isCell_ofString rfl, isCell_ofString rfl, isCell_ofString rfl, isCell_ofString rfl⟩
  cells v := by simp [Analyzed.vulnerabilityCells, isCell_plain]

theorem sound_packages : Sound ["Package", "Version"] Analyzed.packageCells where
  ne_nil := List.cons_ne_nil _ _
  names := by
    simp only [List.forall_mem_cons, List.not_mem_nil, false_implies, implies_true, and_true]
    exact ⟨isCell_ofString rfl, isCell_ofString rfl⟩
  cells p := by simp [Analyzed.packageCells, isCell_plain]

variable (a : Analyzed)

theorem block_vulnerabilities :
    Block (tableOf ["ID", "Severity", "Package", "Version"] Analyzed.vulnerabilityCells
      (fun _ => rfl) a.stats.vulnerabilities) a.vulnerabilitiesText := by
  rw [Analyzed.vulnerabilitiesText]
  by_cases h : a.stats.vulnerabilities = []
  · rw [h]
    exact block_nil
  · rw [if_neg (by simpa using h)]
    refine ⟨?_, .inr ?_⟩
    · exact (carries_tableOf sound_vulnerabilities heads.1 h _).append_text
        (block_ofString _)
    · simp only [List.append_assoc]
      exact exists_starts _ _

theorem block_packages :
    Block (tableOf ["Package", "Version"] Analyzed.packageCells (fun _ => rfl) a.stats.packages)
      a.packagesText := by
  rw [Analyzed.packagesText]
  by_cases h : a.stats.packages = []
  · rw [h]
    exact block_ofString _
  · rw [if_neg (by simpa using h)]
    refine ⟨?_, .inr ?_⟩
    · exact (carries_tableOf sound_packages heads.2.1 h _).append_text (block_ofString _)
    · simp only [List.append_assoc]
      exact exists_starts _ _

theorem block_warnings : Block [] a.warningsText := by
  rw [Analyzed.warningsText]
  split_ifs
  · exact block_nil
  · exact block_starts _ _

/-- The analysis of an image shows its tables. -/
theorem block_analysis (wasted : String) : Block (analysisTables a.stats) (a.text wasted) := by
  have hhead : Block [] (a.headText wasted) := by
    simp only [Analyzed.headText, List.append_assoc]
    exact block_starts _ _
  have hblock := ((hhead.append (block_vulnerabilities a)).append (block_packages a)).append
    (block_warnings a)
  rwa [List.append_nil] at hblock

/-! ### The default template -/

theorem sound_default (noSymbols : Bool) :
    Sound ["Name", "Type", "Description", "Default", "Required"] (defaultCells noSymbols) where
  ne_nil := List.cons_ne_nil _ _
  names := by
    simp only [List.forall_mem_cons, List.not_mem_nil, false_implies, implies_true, and_true]
    exact ⟨isCell_ofString rfl, isCell_ofString rfl, isCell_ofString rfl, isCell_ofString rfl,
      isCell_ofString rfl⟩
  cells i := by
    simp [defaultCells, isCell_plain, isCell_code, isCell_keyword, isCell_requiredMark]

theorem block_analysisText (r : ImageReport) (wasted : String) :
    Block (r.stats.elim [] analysisTables) (r.analysisText wasted) := by
  rw [ImageReport.stats, ImageReport.analysisText, ImageReport.analyzed]
  cases r.image with
  | none => exact block_nil
  | some a => exact block_analysis ⟨a, r.options⟩ wasted

theorem shows_defaultReport (r : ImageReport) (wasted : String) :
    ShowsTables (defaultTables r.options.noSymbols r.doc r.stats)
      (lines (defaultReport r wasted)) := by
  refine Carries.showsTables (Carries.append ?_ (block_analysisText r wasted))
  by_cases h : r.doc.items = []
  · rw [h]
    exact carries_nil _
  · rw [if_neg (by simpa using h), ← List.append_assoc]
    exact carries_tableOf (sound_default _) heads.2.2.1 h _

/-! ### The minimal template -/

theorem sound_minimal : Sound ["Name", "Description", "Default"] minimalCells where
  ne_nil := List.cons_ne_nil _ _
  names := by
    simp only [List.forall_mem_cons, List.not_mem_nil, false_implies, implies_true, and_true]
    exact ⟨isCell_ofString rfl, isCell_ofString rfl, isCell_ofString rfl⟩
  cells i := by simp [minimalCells, isCell_plain, isCell_code]

theorem shows_minimalReport (r : ImageReport) :
    ShowsTables [minimalTable r.doc] (lines (minimalReport r)) := by
  have hline : Block [] (r.analyzed.elim [] imageLine) := by
    cases r.analyzed with
    | none => exact block_nil
    | some a =>
      simp only [Option.elim_some, imageLine, List.append_assoc]
      exact block_starts _ _
  -- the table starts on the first line, so a line end is put before it and taken away again
  have hcarries := ((carries_rows sound_minimal (fun _ => rfl) heads.2.2.2.1 r.doc.items
    []).append_text hline).showsTables
  simp only [List.nil_append, List.cons_append, lines_cons] at hcarries
  exact hcarries.of_blank

/-! ### The detailed template -/

theorem sound_detailed (noSymbols : Bool) :
    Sound ["Name", "Description", "Default", "Required"] (detailedCells noSymbols) where
  ne_nil := List.cons_ne_nil _ _
  names := by
    simp only [List.forall_mem_cons, List.not_mem_nil, false_implies, implies_true, and_true]
    exact ⟨isCell_ofString rfl, isCell_ofString rfl, isCell_ofString rfl, isCell_ofString rfl⟩
  cells i := by simp [detailedCells, isCell_plain, isCell_code, isCell_requiredMark]

theorem sound_port : Sound ["Port", "Description"] portCells where
  ne_nil := List.cons_ne_nil _ _
  names := by
    simp only [List.forall_mem_cons, List.not_mem_nil, false_implies, implies_true, and_true]
    exact ⟨isCell_ofString rfl, isCell_ofString rfl⟩
  cells i := by simp [portCells, isCell_plain, isCell_code]

theorem block_itemTable (noSymbols : Bool) (items : List Item) (title : String) :
    Block (tableOf ["Name", "Description", "Default", "Required"] (detailedCells noSymbols)
      (fun _ => rfl) items) (itemTableText noSymbols items title) := by
  rw [itemTableText]
  by_cases h : items = []
  · rw [h]
    exact block_nil
  · rw [if_neg (by simpa using h)]
    refine ⟨?_, .inr (exists_starts _ _)⟩
    rw [← List.append_assoc, ← List.append_assoc]
    exact carries_tableOf (sound_detailed _) heads.2.2.2.2.1 h _

theorem block_portTable (items : List Item) :
    Block (tableOf ["Port", "Description"] portCells (fun _ => rfl) items)
      (portTableText items) := by
  rw [portTableText]
  by_cases h : items = []
  · rw [h]
    exact block_nil
  · rw [if_neg (by simpa using h)]
    refine ⟨?_, .inr (exists_starts _ _)⟩
    exact carries_tableOf sound_port heads.2.2.2.2.2 h []

/-- The items of a kind are found by its keyword. -/
theorem ofKind_keyword (d : Documentation) (k : Kind) : d.ofKind k.keyword = itemsOfKind d k := by
  refine List.filter_congr fun i _ => ?_
  cases i.kind <;> cases k <;> decide

theorem shows_detailedReport (r : ImageReport) (wasted : String) :
    ShowsTables (detailedTables r.options.noSymbols r.doc r.stats)
      (lines (detailedReport r wasted)) := by
  have hscan : Block [] (r.scanned.elim [] Analyzed.scanText) := by
    cases r.scanned with
    | none => exact block_nil
    | some t =>
      simp only [Option.elim_some, Analyzed.scanText, List.append_assoc]
      exact block_starts _ _
  have htables : detailedTables r.options.noSymbols r.doc r.stats =
      [] ++ tableOf ["Name", "Description", "Default", "Required"]
        (detailedCells r.options.noSymbols) (fun _ => rfl) (r.doc.ofKind Kind.arg.keyword) ++
      tableOf ["Name", "Description", "Default", "Required"]
        (detailedCells r.options.noSymbols) (fun _ => rfl) (r.doc.ofKind Kind.env.keyword) ++
      tableOf ["Name", "Description", "Default", "Required"]
        (detailedCells r.options.noSymbols) (fun _ => rfl) (r.doc.ofKind Kind.label.keyword) ++
      tableOf ["Port", "Description"] portCells (fun _ => rfl)
        (r.doc.ofKind Kind.expose.keyword) ++ r.stats.elim [] analysisTables := by
    simp [detailedTables, ofKind_keyword]
  rw [htables]
  exact Carries.showsTables (((((((carries_nil _).append (block_itemTable _ _ _)).append
    (block_itemTable _ _ _)).append (block_itemTable _ _ _)).append (block_portTable _)).append
    (block_analysisText r wasted)).append_text hscan)

/-! ## Reports -/

def Reports (sizes : List (Except Size.SizeError String)) (tables : List Table)
    (report : Except Stop Text) : Prop :=
  (∃ text, report = .ok text ∧ (∀ size ∈ sizes, ∃ t, size = .ok t) ∧
    ShowsTables tables (lines text)) ∨
  ∃ e, .error e ∈ sizes ∧ report = .error (.crash (.size e))

def sizes (stats : Option ImageStats) : List (Except Size.SizeError String) :=
  stats.elim [] fun s => [s.sizeText, s.wastedText]

/-- A report whose size has no printed form is not made. -/
theorem image_of_size_error {t : Template} {d : Documentation} {s : ImageStats}
    {options : ReportOptions} {e : Size.SizeError} (h : s.sizeText = .error e) :
    Report.image t .markdown d (some s) options = .error (.crash (.size e)) := by
  have hdata : Report.imageData d.items (some s) = .error e := by
    simp only [Report.imageData, Report.statsData, h]
    rfl
  simp only [Report.image, Report.imageValues?, hdata]
  rfl

/-- A report about no image, or one whose size has a printed form, is what its template prints. -/
theorem image_of_render {t : Template} {r : ImageReport} {result : Except Fault Text}
    (h : ∀ data, t.render false (Report.imageValues r.doc r.stats r.options data) = result) :
    Report.image t .markdown r.doc r.stats r.options = result.mapError Report.stop := by
  have hsizes : ∀ s ∈ r.stats, ∃ t, s.sizeText = .ok t := by
    rintro s hs
    obtain ⟨a, -, rfl⟩ := Option.map_eq_some_iff.1 hs
    exact ⟨_, a.size_eq⟩
  obtain ⟨data, hdata⟩ := Report.exists_imageData r.doc.items hsizes
  rw [Report.image, Report.imageValues?, hdata]
  change Report.print t .markdown (Report.imageValues r.doc r.stats r.options data) = _
  have hrender : t.render (ReportFormat.markdown == .html)
      (Report.imageValues r.doc r.stats r.options data) = result := h data
  rw [Report.print, hrender]
  cases result <;> rfl

theorem exists_report (d : Documentation) (stats : Option ImageStats) (options : ReportOptions) :
    (∃ s e, stats = some s ∧ s.sizeText = .error e) ∨
      ∃ r : ImageReport, r.doc = d ∧ r.stats = stats ∧ r.options = options := by
  cases stats with
  | none => exact .inr ⟨⟨d, none, options⟩, rfl, rfl, rfl⟩
  | some s =>
    cases hsize : s.sizeText with
    | error e => exact .inl ⟨s, e, rfl, hsize⟩
    | ok size => exact .inr ⟨⟨d, some ⟨s, size, hsize⟩, options⟩, rfl, rfl, rfl⟩

/-- What is wasted is printed if both sizes have a printed form. -/
theorem wasted_eq_ok {r : ImageReport} {w : String} (h : r.wasted = .ok w) :
    ∀ size ∈ sizes r.stats, ∃ t, size = .ok t := by
  rw [ImageReport.wasted, ImageReport.analyzed] at h
  rw [sizes, ImageReport.stats]
  cases hr : r.image with
  | none => simp
  | some a =>
    rw [hr] at h
    cases hwasted : a.stats.wastedText with
    | ok t => simp [hwasted, a.size_eq]
    | error e => simp [Sized.wasted, hwasted] at h

theorem wasted_eq_error {r : ImageReport} {f : Fault} (h : r.wasted = .error f) :
    ∃ e, f = .size e ∧ .error e ∈ sizes r.stats := by
  rw [ImageReport.wasted, ImageReport.analyzed] at h
  rw [sizes, ImageReport.stats]
  cases hr : r.image with
  | none => simp [hr] at h
  | some a =>
    rw [hr] at h
    cases hwasted : a.stats.wastedText with
    | ok t => simp [Sized.wasted, hwasted] at h
    | error e =>
      refine ⟨e, ?_, by simp [hwasted]⟩
      simpa [Sized.wasted, hwasted] using h.symm

/-- The report of a template that prints the analysis of an image. -/
theorem reports_of_render {t : Template} {text : ImageReport → String → Text}
    {tables : Bool → Documentation → Option ImageStats → List Table}
    (h : ∀ (r : ImageReport) data,
      t.render false (Report.imageValues r.doc r.stats r.options data) = r.wasted.map (text r))
    (hshows : ∀ r w, ShowsTables (tables r.options.noSymbols r.doc r.stats) (lines (text r w)))
    (d : Documentation) (stats : Option ImageStats) (options : ReportOptions) :
    Reports (sizes stats) (tables options.noSymbols d stats)
      (Report.image t .markdown d stats options) := by
  obtain ⟨s, e, rfl, hsize⟩ | ⟨r, rfl, rfl, rfl⟩ := exists_report d stats options
  · exact .inr ⟨e, by simp [sizes, hsize], image_of_size_error hsize⟩
  · rw [image_of_render (h r)]
    cases hwasted : r.wasted with
    | ok w => exact .inl ⟨_, rfl, wasted_eq_ok hwasted, hshows r w⟩
    | error f =>
      obtain ⟨e, rfl, he⟩ := wasted_eq_error hwasted
      exact .inr ⟨e, he, rfl⟩

/-- In the reports about one image every item is exactly one row of a table: with five cells in the
default template, three in the minimal one and four in the detailed one, which has a table for each
kind of items and two cells for a port. Every vulnerability is a row with four cells, every package
one with two. A report is missing only if a size in it is too large to be printed. -/
theorem image_tables :
    (∃ t, Report.builtinTemplate "default" .image = .ok t ∧ ∀ d stats options,
      Reports (sizes stats) (defaultTables options.noSymbols d stats)
        (Report.image t .markdown d stats options)) ∧
    (∃ t, Report.builtinTemplate "minimal" .image = .ok t ∧ ∀ d stats options,
      Reports (stats.elim [] fun s => [s.sizeText]) [minimalTable d]
        (Report.image t .markdown d stats options)) ∧
    ∃ t, Report.builtinTemplate "detailed" .image = .ok t ∧ ∀ d stats options,
      Reports (sizes stats) (detailedTables options.noSymbols d stats)
        (Report.image t .markdown d stats options) := by
  refine ⟨?default, ?minimal, ?detailed⟩
  case default =>
    obtain ⟨t, ht, hrender⟩ := prints_defaultImage.exists_template
    exact ⟨t, Report.builtinTemplate_eq rfl ht,
      reports_of_render (fun r data => hrender r _ (sees_imageValues r data)) shows_defaultReport⟩
  case minimal =>
    obtain ⟨t, ht, hrender⟩ := prints_minimalImage.exists_template
    refine ⟨t, Report.builtinTemplate_eq rfl ht, fun d stats options => ?_⟩
    obtain ⟨s, e, rfl, hsize⟩ | ⟨r, rfl, rfl, rfl⟩ := exists_report d stats options
    · exact .inr ⟨e, by simp [hsize], image_of_size_error hsize⟩
    · refine .inl ⟨_, image_of_render fun data => hrender r _ (sees_imageValues r data), ?_,
        shows_minimalReport r⟩
      rw [ImageReport.stats]
      cases r.image with
      | none => simp
      | some a => simp [a.size_eq]
  case detailed =>
    obtain ⟨t, ht, hrender⟩ := exists_detailedTemplate
    exact ⟨t, Report.builtinTemplate_eq rfl ht, reports_of_render hrender shows_detailedReport⟩

end Markdown
end ContainerDocs
