import ContainerDocs.Proofs.Report.Comparison

/-!
# Tables of metrics

Which lines of the tables of metrics have one cell for each column. The names of the images of a
comparison, their platforms and the base system of an image are printed as they are; every other
line has its cells whatever is known about the images.

## Main definitions

* `Markdown.metricLines` — the lines of the table of metrics of one image.

## Main statements

* `Markdown.metric_tables` — the lines that have their cells for all data, and when the others have
  them.
* `Markdown.metric_tables_broken` — a label that adds a column to one line.
-/

namespace ContainerDocs
namespace Markdown

open Parts Scope

/-! ## One image -/

def platformLines (s : ImageStats) : List Text :=
  row [Text.ofString "Architecture",
    hyphenated s.architecture ++ Text.ofString "/" ++ hyphenated s.os] ::
  ((if s.platforms.isEmpty then []
    else [row [Text.ofString "Platforms", Text.join (Text.ofString ", ") s.platforms]]) ++
  if s.distribution.isEmpty then [] else [row [Text.ofString "Base OS", s.distribution]])

def firstLines (size : String) : List Text :=
  [row [Text.ofString "Metric", Text.ofString "Value"], Text.ofString "|--------|-------|",
    row [Text.ofString "Size", Text.ofString size]]

def lastLines (s : ImageStats) (wasted : String) : List Text :=
  [row [Text.ofString "Efficiency", Text.ofString (Format.fixed 1 s.efficiency) ++
      Text.ofString "% (" ++ Text.ofString wasted ++ Text.ofString " wasted)"],
    row [Text.ofString "Total Layers", number s.layers],
    row [Text.ofString "Total Packages", number s.packageCount]]

def metricLines (s : ImageStats) (size wasted : String) : List Text :=
  firstLines size ++ platformLines s ++ lastLines s wasted

theorem row_two (t u : Text) : row [t, u] =
    Text.ofString "| " ++ (t ++ (Text.ofString " | " ++ (u ++ Text.ofString " |"))) := by
  simp [row, Text.join]

/-- The start of a line that shows the value with a name. -/
theorem ofString_line (name : String) : Text.ofString ("\n| " ++ (name ++ " | ")) =
    Text.ofString "\n" ++ (Text.ofString "| " ++
      (Text.ofString name ++ Text.ofString " | ")) := by
  have hbar : Text.ofString "\n| " = Text.ofString "\n" ++ Text.ofString "| " := rfl
  rw [Text.ofString_append, Text.ofString_append, hbar, List.append_assoc]

/-- A line that is left out if there is nothing to show. -/
theorem optionalMetric_eq (isEmpty : Bool) (name : String) (value : Text) :
    Analyzed.optionalMetric isEmpty ("\n| " ++ (name ++ " | ")) value =
      (if isEmpty then [] else [row [Text.ofString name, value]]).flatMap
        (Text.ofString "\n" ++ ·) := by
  cases isEmpty with
  | true => rfl
  | false =>
    have hline : Analyzed.optionalMetric false ("\n| " ++ (name ++ " | ")) value =
        Text.ofString ("\n| " ++ (name ++ " | ")) ++ (value ++ Text.ofString " |") := rfl
    rw [hline, ofString_line]
    simp [row_two]

/-- The table of metrics is its lines. -/
theorem metricsText_eq (a : Analyzed) (wasted : String) :
    a.metricsText wasted ++ Text.ofString " |" =
      Text.join (Text.ofString "\n") (metricLines a.stats a.size wasted) := by
  have hfirst : Text.ofString "| Metric | Value |\n|--------|-------|\n| Size | " =
      row [Text.ofString "Metric", Text.ofString "Value"] ++ (Text.ofString "\n" ++
        (Text.ofString "|--------|-------|" ++ Text.ofString ("\n| " ++ ("Size" ++ " | ")))) := by
    decide
  have harchitecture : Text.ofString " |\n| Architecture | " =
      Text.ofString " |" ++ Text.ofString ("\n| " ++ ("Architecture" ++ " | ")) := by decide
  have hefficiency : Text.ofString "\n| Efficiency | " =
      Text.ofString ("\n| " ++ ("Efficiency" ++ " | ")) := by decide
  have hlayers : Text.ofString " wasted) |\n| Total Layers | " =
      Text.ofString " wasted)" ++ (Text.ofString " |" ++
        Text.ofString ("\n| " ++ ("Total Layers" ++ " | "))) := by decide
  have hpackages : Text.ofString " |\n| Total Packages | " =
      Text.ofString " |" ++ Text.ofString ("\n| " ++ ("Total Packages" ++ " | ")) := by decide
  have hplatforms := optionalMetric_eq a.stats.platforms.isEmpty "Platforms"
    (Text.join (Text.ofString ", ") a.stats.platforms)
  have hdistribution := optionalMetric_eq a.stats.distribution.isEmpty "Base OS"
    a.stats.distribution
  have hp : "\n| " ++ ("Platforms" ++ " | ") = "\n| Platforms | " := by decide
  have hd : "\n| " ++ ("Base OS" ++ " | ") = "\n| Base OS | " := by decide
  rw [hp] at hplatforms
  rw [hd] at hdistribution
  simp only [Analyzed.metricsText, hfirst, harchitecture, hplatforms, hdistribution, hefficiency,
    hlayers, hpackages, ofString_line, row_two, metricLines, firstLines, platformLines, lastLines,
    List.cons_append, List.nil_append, join_cons, List.flatMap_append, List.flatMap_cons,
    List.flatMap_nil, List.append_nil, List.append_assoc]

/-! ## Cells of lines -/

theorem isTableLine_metric_iff {α : Type} {first : Text} {as : List α} {cell : α → Text} :
    IsTableLine (as.length + 1) (row (first :: as.map cell)) ↔
      IsCell first ∧ ∀ a ∈ as, IsCell (cell a) := by
  have hrow := isTableLine_row_iff (List.cons_ne_nil first (as.map cell))
  rw [List.length_cons, List.length_map, List.forall_mem_cons, List.forall_mem_map] at hrow
  exact hrow

theorem isTableLine_two_iff {t u : Text} : IsTableLine 2 (row [t, u]) ↔ IsCell t ∧ IsCell u := by
  have hrow := isTableLine_row_iff (List.cons_ne_nil t [u])
  rwa [List.forall_mem_cons, List.forall_mem_singleton] at hrow

theorem isCell_slash_iff {t u : Text} :
    IsCell (t ++ Text.ofString "/" ++ u) ↔ IsCell t ∧ IsCell u := by
  rw [List.append_assoc]
  exact isCell_append_cons_iff (by decide) (by decide) (by decide)

theorem isCell_fixed (places : Nat) (x : Binary64) :
    IsCell (Text.ofString (Format.fixed places x)) := by
  rw [Format.fixed, Text.ofString, String.toList_ofList]
  exact isCell_ofChars (allPlain_fixedChars places x)

/-! ### One image -/

theorem isTableLine_firstLines {s : ImageStats} {size : String} (h : s.sizeText = .ok size) :
    ∀ l ∈ firstLines size, IsTableLine 2 l := by
  have hrule : IsTableLine 2 (Text.ofString "|--------|-------|") :=
    ⟨by decide, [Text.ofString "--------", Text.ofString "-------"], rfl, by decide⟩
  rw [firstLines, List.forall_mem_cons, List.forall_mem_cons, List.forall_mem_singleton]
  exact ⟨isTableLine_two_iff.2 ⟨isCell_ofString rfl, isCell_ofString rfl⟩, hrule,
    isTableLine_two_iff.2 ⟨isCell_ofString rfl, isCell_megabytes h⟩⟩

theorem isTableLine_lastLines {s : ImageStats} {wasted : String} (h : s.wastedText = .ok wasted) :
    ∀ l ∈ lastLines s wasted, IsTableLine 2 l := by
  have hefficiency : IsCell (Text.ofString (Format.fixed 1 s.efficiency) ++ Text.ofString "% (" ++
      Text.ofString wasted ++ Text.ofString " wasted)") :=
    (((isCell_fixed 1 _).append (isCell_ofString rfl)).append (isCell_megabytes h)).append
      (isCell_ofString rfl)
  rw [lastLines, List.forall_mem_cons, List.forall_mem_cons, List.forall_mem_singleton]
  exact ⟨isTableLine_two_iff.2 ⟨isCell_ofString rfl, hefficiency⟩,
    isTableLine_two_iff.2 ⟨isCell_ofString rfl, isCell_number _⟩,
    isTableLine_two_iff.2 ⟨isCell_ofString rfl, isCell_number _⟩⟩

/-- The lines about platforms have their cells exactly if every text in them stays inside its
cell. -/
theorem isTableLine_platformLines_iff (s : ImageStats) :
    (∀ l ∈ platformLines s, IsTableLine 2 l) ↔
      IsCell s.architecture ∧ IsCell s.os ∧ (∀ p ∈ s.platforms, IsCell p) ∧
        IsCell s.distribution := by
  have hplatforms : (∀ l ∈ (if s.platforms.isEmpty then []
      else [row [Text.ofString "Platforms", Text.join (Text.ofString ", ") s.platforms]]),
        IsTableLine 2 l) ↔ ∀ p ∈ s.platforms, IsCell p := by
    cases s.platforms with
    | nil => simp
    | cons p ps =>
      have hname : IsCell (Text.ofString "Platforms") := isCell_ofString rfl
      rw [if_neg (by simp), List.forall_mem_singleton, isTableLine_two_iff, isCell_join_iff,
        and_iff_right hname]
  have hdistribution : (∀ l ∈ (if s.distribution.isEmpty then []
      else [row [Text.ofString "Base OS", s.distribution]]), IsTableLine 2 l) ↔
        IsCell s.distribution := by
    cases s.distribution with
    | nil => simpa using isCell_nil
    | cons c t =>
      have hname : IsCell (Text.ofString "Base OS") := isCell_ofString rfl
      rw [if_neg (by simp), List.forall_mem_singleton, isTableLine_two_iff, and_iff_right hname]
  have hname : IsCell (Text.ofString "Architecture") := isCell_ofString rfl
  rw [platformLines, List.forall_mem_cons, List.forall_mem_append, hplatforms, hdistribution,
    isTableLine_two_iff, and_iff_right hname, isCell_slash_iff, isCell_hyphenated_iff,
    isCell_hyphenated_iff, and_assoc]

/-! ### Comparisons -/

theorem isTableLine_headerLine_iff (r : ComparisonReport) :
    IsTableLine (r.images.length + 1) (headerLine r) ↔
      ∀ a ∈ r.images, IsCell (Text.ofString a.name) := by
  have hname : IsCell (Text.ofString "Metric") := isCell_ofString rfl
  rw [headerLine, isTableLine_metric_iff, and_iff_right hname]
  rfl

theorem isTableLine_architectureLine_iff (r : ComparisonReport) :
    IsTableLine (r.images.length + 1) (architectureLine r) ↔
      ∀ a ∈ r.images, IsCell a.stats.architecture ∧ IsCell a.stats.os := by
  have hname : IsCell (Text.ofString "Architecture") := isCell_ofString rfl
  rw [architectureLine, isTableLine_metric_iff, and_iff_right hname]
  simp only [NamedImage.platformCell, isCell_slash_iff, isCell_hyphenated_iff]

theorem isTableLine_ruleLine (images : List NamedImage) :
    IsTableLine (images.length + 1) (ruleLine images) := by
  have hpieces : ∀ images : List NamedImage,
      cutAtBars false (images.flatMap fun _ => Text.ofString "------|") =
        images.map (fun _ => Text.ofString "------") ++ [[]] := by
    intro images
    induction images with
    | nil => rfl
    | cons a images ih =>
      have hpiece : ∀ rest, cutAtBars false (Text.ofString "------|" ++ rest) =
          Text.ofString "------" :: cutAtBars false rest := fun _ => rfl
      rw [List.flatMap_cons, hpiece, ih, List.map_cons, List.cons_append]
  have hunbroken : ∀ c ∈ Text.ofString "|--------|" ++ Text.ofString "------|",
      isLineEnd c = false := by decide
  rw [List.forall_mem_append] at hunbroken
  refine ⟨?_, Text.ofString "--------" :: images.map fun _ => Text.ofString "------",
    by simp, ?_⟩
  · rw [ruleLine, List.forall_mem_append, List.forall_mem_flatMap]
    exact ⟨hunbroken.1, fun _ _ => hunbroken.2⟩
  · have hfirst : ∀ rest, cutAtBars false (Text.ofString "|--------|" ++ rest) =
        [] :: Text.ofString "--------" :: cutAtBars false rest := fun _ => rfl
    rw [ruleLine, hfirst, hpieces, List.cons_append]

theorem isTableLine_sizeLine (r : ComparisonReport) :
    IsTableLine (r.images.length + 1) (sizeLine r) :=
  isTableLine_metric_iff.2 ⟨isCell_ofString rfl, fun a _ => isCell_megabytes a.size_eq⟩

theorem isCell_severity : ∀ severity ∈ Analyzed.severities, ∀ noSymbols,
    IsCell (Cell.severityMark severity noSymbols ++ severity) := by
  simp only [isCell_iff]
  decide

theorem isTableLine_numberLines {r : ComparisonReport} {wasted : List String}
    (h : r.wasted = .ok wasted) :
    ∀ l ∈ numberLines r wasted, IsTableLine (r.images.length + 1) l := by
  have hwasted := Traversal.forall₂_of_mapM h
  have hwastedCells : ∀ w ∈ wasted, IsCell (Text.ofString w) := by
    intro w hw
    obtain ⟨i, hi, rfl⟩ := List.mem_iff_getElem.1 hw
    exact isCell_megabytes (wastedText_of_wasted (hwasted.get (hwasted.length_eq ▸ hi) hi))
  have hwastedLine : IsTableLine (r.images.length + 1)
      (row (Text.ofString "Wasted" :: wasted.map Text.ofString)) := by
    rw [hwasted.length_eq]
    exact isTableLine_metric_iff.2 ⟨isCell_ofString rfl, hwastedCells⟩
  have hnumber : ∀ (name : String) (f : NamedImage → Int), IsCell (Text.ofString name) →
      IsTableLine (r.images.length + 1)
        (row (Text.ofString name :: r.images.map fun a => number (f a))) :=
    fun name f hname => isTableLine_metric_iff.2 ⟨hname, fun a _ => isCell_number _⟩
  have hefficiency : IsTableLine (r.images.length + 1)
      (row (Text.ofString "Efficiency" :: r.images.map (·.efficiencyCell))) :=
    isTableLine_metric_iff.2 ⟨isCell_ofString rfl,
      fun a _ => (isCell_fixed 1 _).append (isCell_ofString rfl)⟩
  rw [numberLines, List.forall_mem_append, List.forall_mem_map]
  refine ⟨?_, fun severity hseverity => isTableLine_metric_iff.2
    ⟨isCell_severity severity hseverity _, fun a _ => isCell_number _⟩⟩
  simp only [List.forall_mem_cons]
  exact ⟨hnumber _ _ (isCell_ofString rfl), hefficiency, hwastedLine,
    hnumber _ _ (isCell_ofString rfl), by simp⟩

/-! ## What reports show -/

/-- A text that shows images with their names side by side. Every line of the table has a cell for
its name and one for each image; the header has them if the names stay inside their cells, and the
line with the platforms if these do. -/
def ShowsComparison (images : List (String × ImageStats)) (text : Text) : Prop :=
  ∃ (r : ComparisonReport) (wasted : List String) (rest : Text),
    r.images.map NamedImage.entry = images ∧ r.wasted = .ok wasted ∧
    text = Text.ofString "## Docker Image Comparison\n\n" ++
      Text.join (Text.ofString "\n") (comparisonLines r wasted) ++
      CodePoint.ofChar '\n' :: rest ∧
    (∀ l ∈ ruleLine r.images :: sizeLine r :: numberLines r wasted,
      IsTableLine (images.length + 1) l) ∧
    (IsTableLine (images.length + 1) (headerLine r) ↔
      ∀ p ∈ images, IsCell (Text.ofString p.1)) ∧
    (IsTableLine (images.length + 1) (architectureLine r) ↔
      ∀ p ∈ images, IsCell p.2.architecture ∧ IsCell p.2.os)

/-- A text that shows the metrics of an image. Every line of the table has two cells; those about
the platforms and the base system have them if the texts in them stay inside their cells. -/
def ShowsMetrics (s : ImageStats) (text : Text) : Prop :=
  ∃ before size wasted rest, s.sizeText = .ok size ∧ s.wastedText = .ok wasted ∧
    text = before ++ Text.ofString "\n\n" ++
      Text.join (Text.ofString "\n") (metricLines s size wasted) ++ Text.ofString "\n\n" ++ rest ∧
    (∀ l ∈ firstLines size ++ lastLines s wasted, IsTableLine 2 l) ∧
    ((∀ l ∈ platformLines s, IsTableLine 2 l) ↔
      IsCell s.architecture ∧ IsCell s.os ∧ (∀ p ∈ s.platforms, IsCell p) ∧
        IsCell s.distribution)

theorem showsComparison_of_report {r : ComparisonReport} {wasted : List String}
    (h : r.wasted = .ok wasted) (rest : Text) :
    ShowsComparison (r.images.map NamedImage.entry)
      (comparisonHead r wasted ++ CodePoint.ofChar '\n' :: rest) := by
  refine ⟨r, wasted, rest, rfl, h, rfl, ?_, ?_, ?_⟩
  · rw [List.length_map, List.forall_mem_cons, List.forall_mem_cons]
    exact ⟨isTableLine_ruleLine _, isTableLine_sizeLine r, isTableLine_numberLines h⟩
  · rw [List.length_map, isTableLine_headerLine_iff, List.forall_mem_map]
    rfl
  · rw [List.length_map, isTableLine_architectureLine_iff, List.forall_mem_map]
    rfl

/-- The table of metrics stands between empty lines. -/
theorem exists_analyzedText (a : Analyzed) (wasted : String) :
    ∃ before rest, a.text wasted = before ++ (Text.ofString "\n\n" ++
      (Text.join (Text.ofString "\n") (metricLines a.stats a.size wasted) ++
        (Text.ofString "\n\n" ++ rest))) := by
  have hhead : Text.ofString ")\n\n" = Text.ofString ")" ++ Text.ofString "\n\n" := rfl
  have hend : ∀ t, Text.ofString " |\n" ++ (Text.ofString "\n### Security Summary\n" ++ t) =
      Text.ofString " |" ++ (Text.ofString "\n\n" ++
        (Text.ofString "### Security Summary\n" ++ t)) := fun _ => rfl
  refine ⟨Text.ofString "\n\n## Docker Image Analysis (" ++ Text.ofString a.stats.imageTag ++
      Text.ofString ")", Text.ofString "### Security Summary\n" ++ a.securityText ++
      a.vulnerabilitiesText ++ a.packagesText ++ a.warningsText, ?_⟩
  rw [← metricsText_eq, Analyzed.text, Analyzed.headText, hhead]
  simp only [List.append_assoc, hend]

theorem showsMetrics_of_report {r : ImageReport} {a : Sized} {wasted : String}
    (hr : r.image = some a) (h : a.wasted = .ok wasted) :
    ShowsMetrics a.stats (defaultReport r wasted) := by
  have hanalysis : r.analysisText wasted = Analyzed.text ⟨a, r.options⟩ wasted := by
    rw [ImageReport.analysisText, ImageReport.analyzed, hr]
    rfl
  obtain ⟨front, hreport⟩ : ∃ front, defaultReport r wasted =
      front ++ r.analysisText wasted ++ Text.ofString "\n" := ⟨_, rfl⟩
  obtain ⟨before, rest, htext⟩ := exists_analyzedText ⟨a, r.options⟩ wasted
  refine ⟨front ++ before, a.size, wasted, rest ++ Text.ofString "\n", a.size_eq,
    wastedText_of_wasted h, ?_, ?_, isTableLine_platformLines_iff a.stats⟩
  · rw [hreport, hanalysis, htext]
    simp only [List.append_assoc]
  · rw [List.forall_mem_append]
    exact ⟨isTableLine_firstLines a.size_eq, isTableLine_lastLines (wastedText_of_wasted h)⟩

/-! ## Reports -/

/-- A report shows something, unless a size that it prints is too large. -/
def ReportsText (sizes : List (Except Size.SizeError String)) (Shows : Text → Prop)
    (report : Except Stop Text) : Prop :=
  (∃ text, report = .ok text ∧ (∀ size ∈ sizes, ∃ t, size = .ok t) ∧ Shows text) ∨
  ∃ e, .error e ∈ sizes ∧ report = .error (.crash (.size e))

/-- What a template reports that prints the table of a comparison and something behind it. -/
theorem reports_comparison {name : String} {b : Builtin} (last : ComparisonReport → Text)
    (hb : Builtin.find? name = some b)
    (hprints : Prints SeesComparison ComparisonReport.wasted false "" false b.comparison
      fun r w => comparisonHead r w ++ last r)
    (hlast : ∀ r, ∃ rest, last r = CodePoint.ofChar '\n' :: rest) :
    ∃ t, Report.builtinTemplate name .comparison = .ok t ∧ ∀ images labels options,
      ReportsText (images.flatMap fun s => sizes (some s))
        (ShowsComparison (Report.withNames labels images))
        (Report.comparison t .markdown images labels options) := by
  obtain ⟨t, ht, hrender⟩ := hprints.exists_template
  refine ⟨t, Report.builtinTemplate_eq hb ht, fun images labels options => ?_⟩
  obtain ⟨r, w, hr, hw, htext⟩ | ⟨s, hs, e, he, hcrash⟩ := comparison_of_render
    (fun r data => hrender r _ (sees_comparisonValues r data)) images labels options
  · obtain ⟨rest, hrest⟩ := hlast r
    have himages : images = r.images.map (·.stats) := by
      rw [← Report.map_snd_withNames labels images, ← hr, List.map_map]
      rfl
    rw [hrest] at htext
    refine .inl ⟨_, htext, ?_, hr ▸ showsComparison_of_report hw rest⟩
    rw [himages, List.flatMap_map, List.forall_mem_flatMap]
    exact sizes_of_wasted hw
  · exact .inr ⟨e, List.mem_flatMap.2 ⟨s, hs, he⟩, hcrash⟩

theorem reports_metrics : ∃ t, Report.builtinTemplate "default" .image = .ok t ∧
    ∀ d s options, ReportsText (sizes (some s)) (ShowsMetrics s)
      (Report.image t .markdown d (some s) options) := by
  obtain ⟨t, ht, hrender⟩ := prints_defaultImage.exists_template
  refine ⟨t, Report.builtinTemplate_eq rfl ht, fun d s options => ?_⟩
  cases hsize : s.sizeText with
  | error e => exact .inr ⟨e, by simp [sizes, hsize], image_of_size_error hsize⟩
  | ok size =>
    let r : ImageReport := ⟨d, some ⟨s, size, hsize⟩, options⟩
    have himage : Report.image t .markdown d (some s) options =
        (r.wasted.map (defaultReport r)).mapError Report.stop :=
      image_of_render fun data => hrender r _ (sees_imageValues r data)
    rw [himage]
    cases hwasted : r.wasted with
    | ok w => exact .inl ⟨_, rfl, wasted_eq_ok hwasted, showsMetrics_of_report rfl hwasted⟩
    | error f =>
      obtain ⟨e, rfl, he⟩ := wasted_eq_error hwasted
      exact .inr ⟨e, he, rfl⟩

theorem reports_defaultComparison :
    ∃ t, Report.builtinTemplate "default" .comparison = .ok t ∧ ∀ images labels options,
      ReportsText (images.flatMap fun s => sizes (some s))
        (ShowsComparison (Report.withNames labels images))
        (Report.comparison t .markdown images labels options) := by
  have hprints := prints_defaultComparison (.nil (Segment.cut_false "\n"))
  rw [List.append_nil] at hprints
  exact reports_comparison _ rfl hprints fun _ => ⟨[], rfl⟩

theorem reports_detailedComparison :
    ∃ t, Report.builtinTemplate "detailed" .comparison = .ok t ∧ ∀ images labels options,
      ReportsText (images.flatMap fun s => sizes (some s))
        (ShowsComparison (Report.withNames labels images))
        (Report.comparison t .markdown images labels options) := by
  refine reports_comparison detailsText rfl ?_ exists_detailsText
  have hprints := prints_defaultComparison prints_details
  simpa [Builtin.all, detailedComparison] using hprints

/-- In a comparison every line of the table has a cell for its name and one for each image, but for
two: the header has them exactly if each name stays inside a cell, and the line with the platforms
exactly if each architecture and each system does. In the default report about one image every line
of the metrics has two cells, but for those that show texts about its platforms, which have them
exactly if these texts stay inside cells. -/
theorem metric_tables (images : List ImageStats) (labels : List String) (d : Documentation)
    (s : ImageStats) (options : ReportOptions) :
    (∀ name ∈ ["default", "detailed"], ∃ t, Report.builtinTemplate name .comparison = .ok t ∧
      ReportsText (images.flatMap fun s => sizes (some s))
        (ShowsComparison (Report.withNames labels images))
        (Report.comparison t .markdown images labels options)) ∧
    ∃ t, Report.builtinTemplate "default" .image = .ok t ∧
      ReportsText (sizes (some s)) (ShowsMetrics s)
        (Report.image t .markdown d (some s) options) := by
  constructor
  · rw [List.forall_mem_cons, List.forall_mem_singleton]
    obtain ⟨t, ht, hreports⟩ := reports_defaultComparison
    obtain ⟨t', ht', hreports'⟩ := reports_detailedComparison
    exact ⟨⟨t, ht, hreports images labels options⟩, t', ht', hreports' images labels options⟩
  · obtain ⟨t, ht, hreports⟩ := reports_metrics
    exact ⟨t, ht, hreports d s options⟩

theorem sizes_eq_ok : ∀ size ∈ sizes (some {}), size = .ok "0.00 MB" := by
  decide +kernel

/-- Two images with names that have no bars. -/
theorem metric_tables_of_names : "detailed" ∈ ["default", "detailed"] ∧
    ∃ t text, Report.builtinTemplate "detailed" .comparison = .ok t ∧
      Report.comparison t .markdown [{}, {}] ["app", "base"] {} = .ok text ∧
      ShowsComparison [("app", {}), ("base", {})] text := by
  have hmem : "detailed" ∈ ["default", "detailed"] := by decide
  obtain ⟨t, ht, hreports⟩ := (metric_tables [{}, {}] ["app", "base"] ⟨[]⟩ {} {}).1 _ hmem
  refine ⟨hmem, t, ?_⟩
  obtain ⟨text, htext, -, hshows⟩ | ⟨e, he, -⟩ := hreports
  · exact ⟨text, ht, htext, hshows⟩
  · simp only [List.flatMap_cons, List.flatMap_nil, List.append_nil, List.mem_append, or_self] at he
    cases sizes_eq_ok _ he

theorem exists_join_first (l l' : Text) (ls : List Text) : ∃ rest,
    Text.join (Text.ofString "\n") (l :: l' :: ls) = l ++ (Text.ofString "\n" ++ rest) := by
  refine ⟨l' ++ ls.flatMap (Text.ofString "\n" ++ ·), ?_⟩
  simp [join_cons]

/-- A line between others stands between line breaks. -/
theorem exists_join_around (first l l' : Text) (ls ls' : List Text) : ∃ before rest,
    Text.join (Text.ofString "\n") (first :: ls ++ l :: l' :: ls') =
      before ++ (Text.ofString "\n" ++ l ++ Text.ofString "\n") ++ rest := by
  refine ⟨first ++ ls.flatMap (Text.ofString "\n" ++ ·),
    l' ++ ls'.flatMap (Text.ofString "\n" ++ ·), ?_⟩
  simp [join_cons]

/-- A bar in the name of an image adds a column to the header, and one in the name of its base
system adds a column to a line of its metrics. -/
theorem metric_tables_broken :
    (∃ t text rest, Report.builtinTemplate "default" .comparison = .ok t ∧
      Report.comparison t .markdown [{}] ["a|b"] {} = .ok text ∧
      text = Text.ofString "## Docker Image Comparison\n\n| Metric | a|b |\n" ++ rest ∧
      ¬IsTableLine 2 (Text.ofString "| Metric | a|b |")) ∧
    ∃ t text before rest, Report.builtinTemplate "default" .image = .ok t ∧
      Report.image t .markdown ⟨[]⟩ (some { distribution := Text.ofString "Debian|12" }) {} =
        .ok text ∧
      text = before ++ Text.ofString "\n| Base OS | Debian|12 |\n" ++ rest ∧
      ¬IsTableLine 2 (Text.ofString "| Base OS | Debian|12 |") := by
  constructor
  · obtain ⟨t, ht, hreports⟩ := reports_defaultComparison
    have hline : row [Text.ofString "Metric", Text.ofString "a|b"] =
        Text.ofString "| Metric | a|b |" := by decide
    have hbroken : ¬IsTableLine 2 (Text.ofString "| Metric | a|b |") := by
      rw [← hline, isTableLine_two_iff, isCell_iff, isCell_iff]
      decide
    obtain ⟨text, htext, -, r, w, last, hr, -, heq, -⟩ | ⟨e, he, -⟩ := hreports [{}] ["a|b"] {}
    · have hnames : r.images.map (·.nameCell) = [Text.ofString "a|b"] := by
        have h := congrArg (List.map fun p => Text.ofString p.1) hr
        rw [List.map_map] at h
        exact h
      obtain ⟨rest, hrest⟩ := exists_join_first (headerLine r) (ruleLine r.images)
        (sizeLine r :: architectureLine r :: numberLines r w)
      have hfront : Text.ofString "## Docker Image Comparison\n\n| Metric | a|b |\n" =
          Text.ofString "## Docker Image Comparison\n\n" ++
            (Text.ofString "| Metric | a|b |" ++ Text.ofString "\n") := by decide
      rw [comparisonLines, hrest, headerLine, hnames, hline] at heq
      refine ⟨t, text, rest ++ CodePoint.ofChar '\n' :: last, ht, htext, ?_, hbroken⟩
      simp only [heq, hfront, List.append_assoc]
    · rw [List.flatMap_singleton] at he
      cases sizes_eq_ok _ he
  · obtain ⟨t, ht, hreports⟩ := reports_metrics
    have hline : row [Text.ofString "Base OS", Text.ofString "Debian|12"] =
        Text.ofString "| Base OS | Debian|12 |" := by decide
    have hbroken : ¬IsTableLine 2 (Text.ofString "| Base OS | Debian|12 |") := by
      rw [← hline, isTableLine_two_iff, isCell_iff, isCell_iff]
      decide
    have hlines : Text.ofString "\n| Base OS | Debian|12 |\n" = Text.ofString "\n" ++
        Text.ofString "| Base OS | Debian|12 |" ++ Text.ofString "\n" := by decide
    obtain ⟨text, htext, -, front, size, wasted, last, -, -, heq, -⟩ | ⟨e, he, -⟩ :=
      hreports ⟨[]⟩ { distribution := Text.ofString "Debian|12" } {}
    · obtain ⟨before, rest, hjoin⟩ : ∃ before rest, Text.join (Text.ofString "\n")
          (metricLines { distribution := Text.ofString "Debian|12" } size wasted) = before ++
            (Text.ofString "\n" ++ row [Text.ofString "Base OS", Text.ofString "Debian|12"] ++
              Text.ofString "\n") ++ rest :=
        exists_join_around (row [Text.ofString "Metric", Text.ofString "Value"]) _ _
          [Text.ofString "|--------|-------|", row [Text.ofString "Size", Text.ofString size],
            row [Text.ofString "Architecture", Text.ofString "-/-"]] _
      refine ⟨t, text, front ++ (Text.ofString "\n\n" ++ before),
        rest ++ (Text.ofString "\n\n" ++ last), ht, htext, ?_, hbroken⟩
      simp only [heq, hjoin, hline, hlines, List.append_assoc]
    · cases sizes_eq_ok _ he

end Markdown
end ContainerDocs
