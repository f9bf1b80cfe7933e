import ContainerDocs.Proofs.Report.Cells
import ContainerDocs.Proofs.Report.ItemTables

/-!
# Comparisons in Markdown

What the default and the detailed template print for a comparison: a table with one column for each
image, and in the detailed one the vulnerabilities of each image behind it.

## Main definitions

* `Markdown.ComparisonReport` — what a comparison is made from.
* `Markdown.comparisonLines` — the lines of its table.

## Main statements

* `Markdown.prints_defaultComparison` — the default template prints these lines.
-/

namespace ContainerDocs
namespace Markdown

open Parts Segment Scope

/-! ## What a comparison is made from -/

structure NamedImage extends Sized where
  name : String

/-- What is known about a comparison. -/
structure ComparisonReport where
  images : List NamedImage
  options : ReportOptions

def NamedImage.value (a : NamedImage) : Value :=
  .mapping [(Text.ofString "name", .ofString a.name), (Text.ofString "stats", .stats a.stats)]

def NamedImage.entry (a : NamedImage) : String × ImageStats := (a.name, a.stats)

structure SeesComparison (r : ComparisonReport) (s : Scope) : Prop where
  images : s.find "images" = .list (r.images.map NamedImage.value)
  severities : s.find "severities" = .texts Analyzed.severities
  options : s.find "options" = .options r.options

/-! ## Cells -/

namespace NamedImage

variable (a : NamedImage)

def nameCell : Text := Text.ofString a.name

def sizeCell : Text := Text.ofString a.size

def platformCell : Text :=
  hyphenated a.stats.architecture ++ Text.ofString "/" ++ hyphenated a.stats.os

def efficiencyCell : Text :=
  Text.ofString (Format.fixed 1 a.stats.efficiency) ++ Text.ofString "%"

end NamedImage

section Expression

variable {a : NamedImage} {s : Scope} (h : s.find "image" = a.value)
include h

theorem eval_imageField {field : String} {v : Value}
    (hfield : (Value.stats a.stats).field field = .ok v) :
    eval false s (imageField field) = .ok v :=
  eval_attribute (eval_field h rfl) hfield

theorem printsAs_imageName : PrintsAs false s (field "image" "name") a.nameCell :=
  ⟨_, eval_field h rfl, rfl⟩

theorem printsAs_imageSize : PrintsAs false s (imageField "size_mb") a.sizeCell := by
  refine ⟨.ofString a.size, eval_imageField h ?_, rfl⟩
  simp [Value.field, Value.attribute?, a.size_eq, Except.map]

theorem eval_imageWasted : eval false s (imageField "wasted_mb") = a.wasted.map .ofString := by
  have hstats : eval false s (field "image" "stats") = .ok (.stats a.stats) := eval_field h rfl
  rw [imageField, eval, hstats, ok_bind, Sized.wasted]
  cases hwasted : a.stats.wastedText <;> simp [Value.field, Value.attribute?, hwasted, Except.map]

theorem printsAs_imageNumber {field : String} {n : Int}
    (hfield : (Value.stats a.stats).field field = .ok (.int n)) :
    PrintsAs false s (imageField field) (number n) :=
  ⟨_, eval_imageField h hfield, rfl⟩

end Expression

/-! ## Lines -/

section Lines

variable {ι ω : Type} {Sees : ι → Scope → Prop} {need : ι → Except Fault ω} {left right : Bool}
  {front name : String} {value rest : List Segment} {text : ι → ω → Text}
  {images : ι → List NamedImage} (cell : ι → NamedImage → Text)

/-- The line of a row whose first cell has been printed. -/
theorem row_cons (first : Text) (cells : List Text) : row (first :: cells) =
    Text.ofString "| " ++ first ++ Text.ofString " |" ++
      cells.flatMap fun cell => Text.ofString " " ++ (cell ++ Text.ofString " |") := by
  rw [row_eq_flatMap (List.cons_ne_nil _ _)]
  simp [Text.ofString]

/-- A cell for each image after the name of a line. -/
theorem prints_cells (front : String) (value : List Segment)
    (hsource : ∀ i s, Sees i s →
      eval false s (.ident "images") = .ok (.list ((images i).map NamedImage.value)))
    (hvalue : PrintsAll (SeesRound Sees "image" NamedImage.value) false " " false
      (value ++ [Segment.text " |"]) fun r _ =>
        Text.ofString " " ++ (cell r.outer r.element ++ Text.ofString " |"))
    (h : Prints Sees need false "\n" right rest text) :
    Prints Sees need false front right
      (loop "image" "images" (.text " " :: value ++ [Segment.text " |"]) ++ .text "\n" :: rest)
      fun i w => Text.ofString front ++ ((((images i).map (cell i)).flatMap fun cell =>
        Text.ofString " " ++ (cell ++ Text.ofString " |")) ++ text i w) := by
  refine .of_eq (.plainLoop images (cut_false _) hsource (.first hvalue) (.first h)) fun i w => ?_
  rw [List.flatMap_map]
  exact congrArg (fun t => Text.ofString front ++ (t ++ text i w))
    (Prints.flatMap_zipIdx (fun a => Text.ofString " " ++ (cell i a ++ Text.ofString " |")) _)

/-- A line of a table with a cell for each image after its name. -/
theorem prints_imageMetric
    (hsource : ∀ i s, Sees i s →
      eval false s (.ident "images") = .ok (.list ((images i).map NamedImage.value)))
    (hvalue : PrintsAll (SeesRound Sees "image" NamedImage.value) false " " false
      (value ++ [Segment.text " |"]) fun r _ =>
        Text.ofString " " ++ (cell r.outer r.element ++ Text.ofString " |"))
    (h : Prints Sees need false "\n" right rest text) :
    Prints Sees need false front right (imageMetric name value ++ rest) fun i w =>
      Text.ofString front ++
        (row (Text.ofString name :: (images i).map (cell i)) ++ text i w) := by
  have hline : imageMetric name value ++ rest = Segment.text ("| " ++ name ++ " |") ::
      (loop "image" "images" (Segment.text " " :: value ++ [Segment.text " |"]) ++
        Segment.text "\n" :: rest) := by
    simp [imageMetric, metric]
  rw [hline]
  refine .of_eq (.joined (prints_cells cell _ value hsource hvalue h)) fun i w => ?_
  simp only [row_cons, Text.ofString_append, List.append_assoc]

/-- A cell that shows the value of one expression. -/
theorem prints_out {e : Expr}
    (he : ∀ r s, SeesRound Sees "image" NamedImage.value r s →
      PrintsAs false s e (cell r.outer r.element)) :
    PrintsAll (SeesRound Sees "image" NamedImage.value) false " " false
      ([out e] ++ [Segment.text " |"])
      fun r _ => Text.ofString " " ++ (cell r.outer r.element ++ Text.ofString " |") :=
  .out (cut_false _) he (.first (.nil (cut_false _)))

end Lines

/-! ## The table -/

def ruleLine (images : List NamedImage) : Text :=
  Text.ofString "|--------|" ++ images.flatMap fun _ => Text.ofString "------|"

def severityLine (r : ComparisonReport) (severity : Text) : Text :=
  row ((Cell.severityMark severity r.options.noSymbols ++ severity) ::
    r.images.map fun a => number (a.stats.vulnerabilityCount severity))

def headerLine (r : ComparisonReport) : Text :=
  row (Text.ofString "Metric" :: r.images.map (·.nameCell))

def sizeLine (r : ComparisonReport) : Text :=
  row (Text.ofString "Size" :: r.images.map (·.sizeCell))

def architectureLine (r : ComparisonReport) : Text :=
  row (Text.ofString "Architecture" :: r.images.map (·.platformCell))

def numberLines (r : ComparisonReport) (wasted : List String) : List Text :=
  [row (Text.ofString "Layers" :: r.images.map fun a => number a.stats.layers),
    row (Text.ofString "Efficiency" :: r.images.map (·.efficiencyCell)),
    row (Text.ofString "Wasted" :: wasted.map Text.ofString),
    row (Text.ofString "Packages" :: r.images.map fun a => number a.stats.packageCount)] ++
  Analyzed.severities.map (severityLine r)

def comparisonLines (r : ComparisonReport) (wasted : List String) : List Text :=
  headerLine r :: ruleLine r.images :: sizeLine r :: architectureLine r :: numberLines r wasted

/-- What has been wasted in the images, or the fault of a template that asks for it. -/
def ComparisonReport.wasted (r : ComparisonReport) : Except Fault (List String) :=
  r.images.mapM (·.wasted)

theorem sees_images (r : ComparisonReport) (s : Scope) (h : SeesComparison r s) :
    eval false s (.ident "images") = .ok (.list (r.images.map NamedImage.value)) :=
  congrArg _ h.images

section Severity

variable {r : Round ComparisonReport Text} {s : Scope}

theorem sees_imagesOfRound (h : SeesRound SeesComparison "severity" .plain r s) :
    eval false s (.ident "images") = .ok (.list (r.outer.images.map NamedImage.value)) := by
  obtain ⟨s₀, hs₀, himages⟩ := h.find_of_ne "images" (by decide) (by decide)
  exact congrArg _ (himages.trans hs₀.images)

theorem printsAs_severityMark (h : SeesRound SeesComparison "severity" .plain r s) :
    PrintsAs false s severitySymbol
      (Cell.severityMark r.element r.outer.options.noSymbols) := by
  obtain ⟨s₀, hs₀, hoptions⟩ := h.find_of_ne "options" (by decide) (by decide)
  exact ⟨_, eval_pipe_args (congrArg _ h.find)
    (evalAll_singleton (eval_field (hoptions.trans hs₀.options) rfl)) rfl, rfl⟩

theorem printsAs_count {r : Round (Round ComparisonReport Text) NamedImage}
    (h : SeesRound (SeesRound SeesComparison "severity" .plain) "image" NamedImage.value r s) :
    PrintsAs false s ((field "image" "stats").send "vuln_count" [.ident "severity"])
      (number (r.element.stats.vulnerabilityCount r.outer.element)) := by
  obtain ⟨s₀, hs₀, hseverity⟩ := h.find_of_ne "severity" (by decide) (by decide)
  exact ⟨_, eval_send (eval_field h.find rfl)
    (evalAll_singleton (congrArg _ (hseverity.trans hs₀.find))) rfl, rfl⟩

theorem prints_severityLine : PrintsAll (SeesRound SeesComparison "severity" .plain) false "" true
    (.text "\n| " :: out severitySymbol :: out (.ident "severity") :: .text " |"
      :: loop "image" "images"
        [.text " ",
          out ((field "image" "stats").send "vuln_count" [.ident "severity"]), .text " |"] ++
        [Segment.text "\n"])
    fun r _ => Text.ofString "\n" ++ severityLine r.outer r.element := by
  have hcells := prints_cells
    (fun (r : Round ComparisonReport Text) a => number (a.stats.vulnerabilityCount r.element)) " |"
    [out ((field "image" "stats").send "vuln_count" [.ident "severity"])]
    (fun _ _ hs => sees_imagesOfRound hs)
    (prints_out (fun (r : Round ComparisonReport Text) a =>
      number (a.stats.vulnerabilityCount r.element)) fun _ _ hs => printsAs_count hs)
    (.nil cut_lineBreak)
  refine .of_eq (.first (.out (cut_false _) (fun _ _ hs => printsAs_severityMark hs)
    (.out (cut_false _) (fun _ _ hs => ⟨_, congrArg _ hs.find, rfl⟩) (.first hcells))))
    fun r _ => ?_
  have hfirst : Text.ofString "\n| " = Text.ofString "\n" ++ Text.ofString "| " := rfl
  simp only [severityLine, row_cons, hfirst, shown_plain, Text.ofString_empty_append,
    Text.append_ofString_empty, List.append_assoc]

end Severity

theorem prints_platform :
    PrintsAll (SeesRound SeesComparison "image" NamedImage.value) false " " false
      ([out (orHyphen (imageField "architecture")), .text "/", out (orHyphen (imageField "os"))] ++
        [Segment.text " |"])
      fun r _ => Text.ofString " " ++ (r.element.platformCell ++ Text.ofString " |") := by
  refine .of_eq (.out (cut_false _)
    (fun _ _ hs => ⟨_, eval_orHyphen (eval_imageField hs.find rfl), rfl⟩) (.first
    (.out (cut_false _) (fun _ _ hs => ⟨_, eval_orHyphen (eval_imageField hs.find rfl), rfl⟩)
    (.first (.nil (cut_false _)))))) fun r _ => ?_
  simp only [NamedImage.platformCell, List.append_assoc]
  rfl

theorem prints_efficiency :
    PrintsAll (SeesRound SeesComparison "image" NamedImage.value) false " " false
      ([out (oneDigit (imageField "efficiency_score")), .text "%"] ++ [Segment.text " |"])
      fun r _ => Text.ofString " " ++ (r.element.efficiencyCell ++ Text.ofString " |") := by
  refine .of_eq (.out (cut_false _)
    (fun _ _ hs => ⟨_, eval_oneDigit (eval_imageField hs.find rfl), rfl⟩)
    (.first (.joined (.nil (cut_false _))))) fun r _ => ?_
  simp only [NamedImage.efficiencyCell, Text.ofString_append, List.append_assoc]
  rfl

/-- The line that shows what is wasted. -/
theorem prints_wasted {right : Bool} {front : String} {rest : List Segment}
    {last : ComparisonReport → Unit → Text}
    (h : PrintsAll SeesComparison false "\n" right rest last) :
    Prints SeesComparison ComparisonReport.wasted false front right
      (imageMetric "Wasted" [out (imageField "wasted_mb")] ++ rest) fun r w =>
        Text.ofString front ++
          (row (Text.ofString "Wasted" :: w.map Text.ofString) ++ last r ()) := by
  have hline : imageMetric "Wasted" [out (imageField "wasted_mb")] ++ rest =
      .text ("| " ++ "Wasted" ++ " |") ::
        (loop "image" "images" [.text " ", out (imageField "wasted_mb"), .text " |"] ++
          .text "\n" :: rest) := by
    simp [imageMetric, metric]
  rw [hline]
  have hbody : Prints (SeesRound SeesComparison "image" NamedImage.value)
      (fun r => r.element.wasted) false "" false
      [.text " ", out (imageField "wasted_mb"), .text " |"]
      fun _ w => Text.ofString " " ++ (Text.ofString w ++ Text.ofString " |") :=
    .first (.needed (cut_false _) (fun _ _ hs => eval_imageWasted hs.find)
      (.first (.nil (cut_false _))))
  have hloop := Prints.neededLoop (fun a : NamedImage => a.wasted) (·.images)
    (fun _ w => Text.ofString " " ++ (Text.ofString w ++ Text.ofString " |"))
    (cut_false (front ++ ("| " ++ "Wasted" ++ " |"))) sees_images hbody (.first h)
  refine .of_eq_of_need (.joined hloop) fun r w hw => ?_
  have hlength := (Traversal.forall₂_of_mapM hw).length_eq
  have hzip : ∀ (as : List NamedImage) (ws : List String), as.length = ws.length →
      (as.zipWith (fun _ w => Text.ofString " " ++ (Text.ofString w ++ Text.ofString " |"))
        ws).flatten =
        (ws.map Text.ofString).flatMap fun cell =>
          Text.ofString " " ++ (cell ++ Text.ofString " |") := by
    intro as ws h
    induction as generalizing ws with
    | nil =>
      obtain rfl := List.length_eq_zero_iff.1 h.symm
      rfl
    | cons a as ih =>
      cases ws with
      | nil => cases h
      | cons w ws =>
        rw [List.zipWith_cons_cons, List.flatten_cons, ih ws (Nat.succ.inj h), List.map_cons,
          List.flatMap_cons]
  simp only [row_cons, Text.ofString_append, List.append_assoc, hzip _ _ hlength]

/-- Texts with a text between neighbours are the first one and then the others behind that text. -/
theorem join_cons (sep t : Text) (ts : List Text) :
    Text.join sep (t :: ts) = t ++ ts.flatMap (sep ++ ·) := by
  induction ts generalizing t with
  | nil => simp [Text.join]
  | cons t' ts ih =>
    rw [Text.join, ih, List.flatMap_cons, List.append_assoc, List.append_assoc]
    simp

def comparisonHead (r : ComparisonReport) (wasted : List String) : Text :=
  Text.ofString "## Docker Image Comparison\n\n" ++
    Text.join (Text.ofString "\n") (comparisonLines r wasted)

theorem prints_defaultComparison {right : Bool} {rest : List Segment}
    {last : ComparisonReport → Unit → Text}
    (h : PrintsAll SeesComparison false "\n" right rest last) :
    Prints SeesComparison ComparisonReport.wasted false "" right (defaultComparison ++ rest)
      fun r w => comparisonHead r w ++ last r () := by
  have hlast : PrintsAll SeesComparison false "\n" right
      (cutLoop "severity" (.ident "severities")
        (.text "\n| " :: out severitySymbol :: out (.ident "severity") :: .text " |"
          :: loop "image" "images"
            [.text " ",
              out ((field "image" "stats").send "vuln_count" [.ident "severity"]), .text " |"] ++
            [Segment.text "\n"]) ++ .text "\n" :: rest) _ :=
    .cutLoop (fun _ => Analyzed.severities)
      (fun r severity => Text.ofString "\n" ++ severityLine r severity) cut_lineBreak
      (fun _ _ hs => congrArg _ hs.severities) prints_severityLine (.first h)
  simp only [defaultComparison, List.append_assoc, List.cons_append, List.nil_append]
  refine .of_eq (.first (prints_imageMetric (fun _ => NamedImage.nameCell) sees_images
    (prints_out (fun _ => NamedImage.nameCell) fun _ _ hs => printsAs_imageName hs.find)
    (.joined (.plainLoop (·.images) (cut_false _) sees_images (.first (.nil (cut_false _)))
    (.first (prints_imageMetric (fun _ => NamedImage.sizeCell) sees_images
      (prints_out (fun _ => NamedImage.sizeCell) fun _ _ hs => printsAs_imageSize hs.find)
    (prints_imageMetric (fun _ => NamedImage.platformCell) sees_images prints_platform
    (prints_imageMetric (fun _ a => number a.stats.layers) sees_images
      (prints_out (fun _ a => number a.stats.layers)
        fun _ _ hs => printsAs_imageNumber hs.find rfl)
    (prints_imageMetric (fun _ => NamedImage.efficiencyCell) sees_images prints_efficiency
    (prints_wasted
    (prints_imageMetric (fun _ a => number a.stats.packageCount) sees_images
      (prints_out (fun _ a => number a.stats.packageCount)
        fun _ _ hs => printsAs_imageNumber hs.find rfl) hlast))))))))))) fun r w => ?_
  have hrule := Prints.flatMap_zipIdx (fun _ => Text.ofString "------|") r.images
  simp only [comparisonHead, comparisonLines, headerLine, sizeLine, architectureLine, numberLines,
    List.cons_append, List.nil_append, join_cons,
    List.flatMap_cons, List.flatMap_map, ruleLine, hrule, Text.ofString_append,
    Text.ofString_empty_append, List.append_assoc]

/-! ## The vulnerabilities of each image -/

def NamedImage.vulnerabilitiesText (a : NamedImage) : Text :=
  Text.ofString "\n\n<details>\n<summary>" ++ a.nameCell ++ Text.ofString ": " ++
  number a.stats.vulnerabilities.length ++ Text.ofString " vulnerabilities" ++
  Text.ofString ("</summary>\n\n| ID | Severity | Package | Version |\n" ++
    "|----|----------|---------|---------|") ++
  (a.stats.vulnerabilities.flatMap fun v => line (Analyzed.vulnerabilityCells v)) ++
  Text.ofString "\n\n</details>"

def NamedImage.detailsText (a : NamedImage) : Text :=
  if a.stats.vulnerabilities.isEmpty then [] else a.vulnerabilitiesText

def detailsText (r : ComparisonReport) : Text :=
  (r.images.flatMap fun a => a.detailsText) ++ Text.ofString "\n"

theorem tests_vulnerabilities (r : Round ComparisonReport NamedImage) (s : Scope)
    (h : SeesRound SeesComparison "image" NamedImage.value r s) :
    ∃ v, eval false s (imageField "vulnerabilities") = .ok v ∧
      v.isTrue = !r.element.stats.vulnerabilities.isEmpty := by
  refine ⟨_, eval_imageField h.find rfl, ?_⟩
  rw [Value.isTrue, List.isEmpty_map]

theorem prints_details :
    PrintsAll SeesComparison false "\n" false
      ([Segment.text "\n"] ++
        cutLoop "image" (.ident "images")
          ([Segment.text "\n"] ++
            cutCond (imageField "vulnerabilities")
              (vulnerabilities
                [out (field "image" "name"), .text ": ", out (imageField "total_vulnerabilities"),
                  .text " vulnerabilities"]
                (imageField "vulnerabilities")) ++ [Segment.text "\n"]) ++
        [Segment.text "\n"])
      fun r _ => detailsText r := by
  have htable : PrintsAll (SeesRound SeesComparison "image" NamedImage.value) false "" true
      (vulnerabilities
        [out (field "image" "name"), .text ": ", out (imageField "total_vulnerabilities"),
          .text " vulnerabilities"]
        (imageField "vulnerabilities")) fun r _ => r.element.vulnerabilitiesText := by
    simp only [vulnerabilities, List.cons_append, List.nil_append]
    refine .of_eq (.first (.out (cut_false _) (fun _ _ hs => printsAs_imageName hs.find) (.first
      (.out (cut_false _) (fun _ _ hs => printsAs_imageNumber hs.find rfl) (.first (.joined
      (.rows (List.cons_ne_nil _ _) (·.element.stats.vulnerabilities)
        (fun _ => Analyzed.vulnerabilityCells) (cut_vulnerabilitiesHead _)
        (fun _ _ hs => eval_imageField hs.find rfl)
        (fun _ _ hs => printsAs_vulnerabilityCells hs.find)
        (.first (.nil cut_detailsEnd))))))))) fun r _ => ?_
    simp only [NamedImage.vulnerabilitiesText, Text.ofString_append, List.append_assoc]
  have hbody : PrintsAll (SeesRound SeesComparison "image" NamedImage.value) false "" true
      (.text "\n" ::
        (cutCond (imageField "vulnerabilities")
          (vulnerabilities
            [out (field "image" "name"), .text ": ", out (imageField "total_vulnerabilities"),
              .text " vulnerabilities"]
            (imageField "vulnerabilities")) ++ [Segment.text "\n"]))
      fun r _ => r.element.detailsText := by
    refine .of_eq (.first (.cutCond cut_lineBreak tests_vulnerabilities htable
      (.first (.nil cut_lineBreak)))) fun r _ => ?_
    simp only [NamedImage.detailsText, Text.ofString_empty_append, Text.append_ofString_empty]
  simp only [List.cons_append, List.nil_append]
  refine .of_eq (.joined (.cutLoop (·.images) (fun _ a => a.detailsText) cut_lineBreaks sees_images
    hbody (.first (.nil (cut_false _))))) fun r _ => ?_
  rw [detailsText, Text.ofString_empty_append]

/-- What follows the table in the detailed template starts on a new line. -/
theorem exists_detailsText (r : ComparisonReport) :
    ∃ rest, detailsText r = CodePoint.ofChar '\n' :: rest := by
  rw [detailsText]
  induction r.images with
  | nil => exact ⟨_, rfl⟩
  | cons a as ih =>
    rw [List.flatMap_cons, List.append_assoc]
    by_cases h : a.stats.vulnerabilities = []
    · simpa [NamedImage.detailsText, h] using ih
    · rw [NamedImage.detailsText, if_neg (by simpa using h)]
      exact ⟨_, rfl⟩

/-! ## Comparisons as reports -/

theorem sees_comparisonValues (r : ComparisonReport) (data : Json) :
    SeesComparison r { globals :=
      Report.comparisonValues (r.images.map NamedImage.entry) r.options data } := by
  refine ⟨?_, rfl, rfl⟩
  exact congrArg Value.list (List.map_map ..)

/-- There is a report about images unless the size of one cannot be printed. -/
theorem exists_comparisonReport (images : List (String × ImageStats)) (options : ReportOptions)
    (h : ∀ p ∈ images, ∃ t, p.2.sizeText = .ok t) :
    ∃ r : ComparisonReport, r.images.map NamedImage.entry = images ∧ r.options = options := by
  suffices hnamed : ∃ as : List NamedImage, as.map NamedImage.entry = images by
    obtain ⟨as, has⟩ := hnamed
    exact ⟨⟨as, options⟩, has, rfl⟩
  induction images with
  | nil => exact ⟨[], rfl⟩
  | cons p images ih =>
    obtain ⟨⟨size, hsize⟩, himages⟩ := List.forall_mem_cons.1 h
    obtain ⟨as, has⟩ := ih himages
    exact ⟨⟨⟨p.2, size, hsize⟩, p.1⟩ :: as, by rw [List.map_cons, has]; rfl⟩

/-- A comparison is what its template prints, or fails at a size that cannot be printed. -/
theorem comparison_of_render {t : Template} {text : ComparisonReport → List String → Text}
    (h : ∀ (r : ComparisonReport) data, t.render false
      (Report.comparisonValues (r.images.map NamedImage.entry) r.options data) =
        r.wasted.map (text r))
    (images : List ImageStats) (labels : List String) (options : ReportOptions) :
    (∃ r w, r.images.map NamedImage.entry = Report.withNames labels images ∧ r.wasted = .ok w ∧
      Report.comparison t .markdown images labels options = .ok (text r w)) ∨
    ∃ s ∈ images, ∃ e, .error e ∈ sizes (some s) ∧
      Report.comparison t .markdown images labels options = .error (.crash (.size e)) := by
  cases hdata : Report.comparisonData (Report.withNames labels images) with
  | error e =>
    obtain ⟨p, hp, hsize⟩ := Report.exists_of_comparisonData_error hdata
    refine .inr ⟨p.2, Report.of_mem_withNames hp, e, by simp [sizes, hsize], ?_⟩
    simp only [Report.comparison, hdata]
  | ok data =>
    obtain ⟨r, hr, rfl⟩ :=
      exists_comparisonReport _ options (Report.sizes_of_comparisonData hdata)
    have hrender : t.render (ReportFormat.markdown == .html)
        (Report.comparisonValues (Report.withNames labels images) r.options data) =
          r.wasted.map (text r) := by
      rw [← hr]
      exact h r data
    cases hwasted : r.wasted with
    | ok w =>
      rw [hwasted] at hrender
      exact .inl ⟨r, w, hr, hwasted, Report.comparison_eq hdata hrender⟩
    | error f =>
      obtain ⟨a, ha, hf⟩ := Traversal.exists_of_mapM_error hwasted
      obtain ⟨e, he, rfl⟩ := wastedText_of_wasted_error hf
      have hmem : a.entry ∈ Report.withNames labels images := hr ▸ List.mem_map_of_mem ha
      refine .inr ⟨a.stats, Report.of_mem_withNames hmem, e, by simp [sizes, he], ?_⟩
      rw [hwasted] at hrender
      simp only [Report.comparison, hdata]
      rw [Report.print, hrender]
      rfl

/-- What is wasted in all images is printed if all their sizes have printed forms. -/
theorem sizes_of_wasted {r : ComparisonReport} {w : List String} (h : r.wasted = .ok w) :
    ∀ a ∈ r.images, ∀ size ∈ sizes (some a.stats), ∃ t, size = .ok t := by
  intro a ha
  obtain ⟨t, ht⟩ := Traversal.exists_of_mem_of_mapM h a ha
  simp [sizes, a.size_eq, wastedText_of_wasted ht]

end Markdown
end ContainerDocs
