import ContainerDocs.Proofs.Report.Markdown
import ContainerDocs.Proofs.Report.Prints
import ContainerDocs.Proofs.Text.CodePoint

/-!
# The analysis of an image in Markdown

What the built-in Markdown templates print about an image. Only the printed form of what is wasted
may be missing, because the size of an image is part of the data of every report.

## Main definitions

* `Markdown.Sized` — statistics whose size has a printed form.
* `Markdown.Analyzed.text` — what the analysis of an image prints.
* `Markdown.ImageReport` — what a report about one image is made from.

## Main statements

* `Markdown.exists_prints_analysis` — the analysis prints its text.
* `Markdown.prints_analysis` — it is left out of a report without an image.
-/

namespace ContainerDocs
namespace Markdown

open Parts Segment Scope

/-! ## Printed texts -/

structure Sized where
  stats : ImageStats
  size : String
  size_eq : stats.sizeText = .ok size

/-- The printed form of what is wasted, or the fault of a template that asks for it. -/
def Sized.wasted (a : Sized) : Except Fault String :=
  match a.stats.wastedText with
  | .ok t => .ok t
  | .error e => .error (.size e)

theorem wastedText_of_wasted {a : Sized} {w : String} (h : a.wasted = .ok w) :
    a.stats.wastedText = .ok w := by
  rw [Sized.wasted] at h
  cases hwasted : a.stats.wastedText <;> rw [hwasted] at h <;> cases h
  rfl

theorem wastedText_of_wasted_error {a : Sized} {f : Fault} (h : a.wasted = .error f) :
    ∃ e, a.stats.wastedText = .error e ∧ f = .size e := by
  rw [Sized.wasted] at h
  cases hwasted : a.stats.wastedText with
  | ok w =>
    rw [hwasted] at h
    cases h
  | error e =>
    rw [hwasted] at h
    cases h
    exact ⟨e, rfl, rfl⟩

structure Analyzed extends Sized where
  options : ReportOptions

def hyphenated (t : Text) : Text := if t.isEmpty then Text.ofString "-" else t

def number (n : Int) : Text := Text.ofChars (Format.integer n)

namespace Analyzed

variable (a : Analyzed) (wasted : String)

/-- A line of the table of metrics that is left out if there is nothing to show. -/
def optionalMetric (isEmpty : Bool) (name : String) (value : Text) : Text :=
  if isEmpty then [] else Text.ofString name ++ (value ++ Text.ofString " |")

def metricsText : Text :=
  Text.ofString "| Metric | Value |\n|--------|-------|\n| Size | " ++
  Text.ofString a.size ++ Text.ofString " |\n| Architecture | " ++
  hyphenated a.stats.architecture ++ Text.ofString "/" ++ hyphenated a.stats.os ++
  Text.ofString " |" ++
  optionalMetric a.stats.platforms.isEmpty "\n| Platforms | "
    (Text.join (Text.ofString ", ") a.stats.platforms) ++
  optionalMetric a.stats.distribution.isEmpty "\n| Base OS | " a.stats.distribution ++
  Text.ofString "\n| Efficiency | " ++ Text.ofString (Format.fixed 1 a.stats.efficiency) ++
  Text.ofString "% (" ++ Text.ofString wasted ++ Text.ofString " wasted) |\n| Total Layers | " ++
  number a.stats.layers ++ Text.ofString " |\n| Total Packages | " ++
  number a.stats.packageCount

/-- The count of a severity, with a bar behind it unless it is the last one. -/
def severityText (severity : Text) (isLast : Bool) : Text :=
  Cell.severityMark severity a.options.noSymbols ++ (severity ++ (Text.ofString ": " ++
    (number (a.stats.vulnerabilityCount severity) ++
      if isLast then [] else Text.ofString " | ")))

def severities : List Text := Severity.order.map Text.ofString

def securityText : Text :=
  severities.zipIdx.flatMap fun p => a.severityText p.1 (p.2 + 1 == severities.length)

def headText : Text :=
  Text.ofString "\n\n## Docker Image Analysis (" ++ Text.ofString a.stats.imageTag ++
  Text.ofString ")\n\n" ++ a.metricsText wasted ++
  Text.ofString " |\n" ++ Text.ofString "\n### Security Summary\n" ++ a.securityText

def vulnerabilityCells (v : Vulnerability) : List Text :=
  [Cell.plain v.id, Cell.plain v.severity, Cell.plain v.package, Cell.plain v.version]

def packageCells (p : Package) : List Text := [Cell.plain p.name, Cell.plain p.version]

def vulnerabilitiesText : Text :=
  if a.stats.vulnerabilities.isEmpty then []
  else Text.ofString "\n\n<details>\n<summary>" ++ Text.ofString "Vulnerabilities Details (" ++
    number a.stats.vulnerabilities.length ++ Text.ofString " found)" ++
    Text.ofString ("</summary>\n\n| ID | Severity | Package | Version |\n" ++
      "|----|----------|---------|---------|") ++
    (a.stats.vulnerabilities.flatMap fun v => line (vulnerabilityCells v)) ++
    Text.ofString "\n\n</details>"

def packagesText : Text :=
  if a.stats.packages.isEmpty then Text.ofString "\n\n*No packages detected.*"
  else Text.ofString "\n\n<details>\n<summary>Packages (" ++ number a.stats.packageCount ++
    Text.ofString
      " total)</summary>\n\n| Package | Version |\n|---------|---------|" ++
    (a.stats.packages.flatMap fun p => line (packageCells p)) ++
    Text.ofString "\n\n</details>"

def warningsText : Text :=
  if a.stats.warnings.isEmpty then []
  else Text.ofString "\n\n> **Note:** some analysis tools failed:" ++
    a.stats.warnings.flatMap fun (w : String) => Text.ofString "\n> - " ++ Cell.plain w

def text : Text :=
  a.headText wasted ++ a.vulnerabilitiesText ++ a.packagesText ++ a.warningsText

end Analyzed

/-! ## What stands between tags -/

theorem cut_rowEnd : cut false true " |\n" = " |" := rfl

theorem cut_barLineBreak (s : String) : cut false true (s ++ "|\n") = s ++ "|" := by
  have hstrip : Blank.stripRight (s.toList ++ ['|', '\n']) = s.toList ++ ['|'] := by
    rw [Blank.stripRight, Blank.trimRight, List.reverse_append]
    simp [Blank.isBlank, Blank.isBlankCode, List.dropWhile]
  have hbreak : (s ++ "|\n").toList = s.toList ++ ['|', '\n'] := String.toList_append
  have hbar : (s ++ "|").toList = s.toList ++ ['|'] := String.toList_append
  rw [cut, if_neg Bool.false_ne_true, if_pos rfl, hbreak, hstrip, ← hbar, String.ofList_toList]

/-- Behind any text the line break at the end of the head of the table is cut. -/
theorem cut_vulnerabilitiesHead (s : String) :
    cut false true (s ++ ("</summary>\n\n| ID | Severity | Package | Version |\n" ++
        "|----|----------|---------|---------|\n")) =
      s ++ ("</summary>\n\n| ID | Severity | Package | Version |\n" ++
        "|----|----------|---------|---------|") := by
  have hlast : "</summary>\n\n| ID | Severity | Package | Version |\n" ++
      "|----|----------|---------|---------|\n" =
      "</summary>\n\n| ID | Severity | Package | Version |\n|----|----------|---------|---------" ++
        "|\n" := by decide
  rw [hlast, ← String.append_assoc, cut_barLineBreak, String.append_assoc]
  exact congrArg (s ++ ·) (by decide)

theorem cut_packagesHead :
    cut false true " total)</summary>\n\n| Package | Version |\n|---------|---------|\n" =
      " total)</summary>\n\n| Package | Version |\n|---------|---------|" :=
  (cut_ofList ..).trans rfl

theorem cut_detailsEnd : cut false true "\n\n</details>\n" = "\n\n</details>" :=
  (cut_ofList ..).trans rfl

theorem cut_noPackages :
    cut false true "\n\n*No packages detected.*\n" = "\n\n*No packages detected.*" :=
  (cut_ofList ..).trans rfl

theorem cut_warningsHead : cut false true "\n\n> **Note:** some analysis tools failed:\n" =
    "\n\n> **Note:** some analysis tools failed:" :=
  (cut_ofList ..).trans rfl

/-! ## Printing -/

/-- What is seen inside the analysis of an image. -/
structure SeesAnalysis (a : Analyzed) (s : Scope) : Prop where
  stats : s.find "stats" = .stats a.stats
  severities : s.find "severities" = .texts Analyzed.severities
  options : s.find "options" = .options a.options

section Expression

variable {a : Analyzed} {s : Scope} (h : SeesAnalysis a s)
include h

theorem printsAs_stats {field : String} {v : Value}
    (hfield : (Value.stats a.stats).field field = .ok v) :
    PrintsAs false s (Parts.field "stats" field) (shown false v) :=
  ⟨v, eval_field h.stats hfield, rfl⟩

theorem printsAs_size : PrintsAs false s (field "stats" "size_mb") (Text.ofString a.size) := by
  refine printsAs_stats (v := .ofString a.size) h ?_
  simp [Value.field, Value.attribute?, a.size_eq, Except.map]

theorem eval_wasted : eval false s (field "stats" "wasted_mb") = a.wasted.map .ofString := by
  rw [field, eval, eval, ok_bind, h.stats, Sized.wasted]
  cases hwasted : a.stats.wastedText <;> simp [Value.field, Value.attribute?, hwasted, Except.map]

theorem printsAs_orHyphen {field : String} {t : Text}
    (hfield : (Value.stats a.stats).field field = .ok (.plain t)) :
    PrintsAs false s (orHyphen (Parts.field "stats" field)) (hyphenated t) :=
  ⟨_, eval_orHyphen (eval_field h.stats hfield), rfl⟩

theorem printsAs_platforms :
    PrintsAs false s ((field "stats" "supported_architectures").pipe "join" [.quoted ", "])
      (Text.join (Text.ofString ", ") a.stats.platforms) := by
  have hjoin : Filter.apply false "join" (.texts a.stats.platforms) [.ofString ", "] [] =
      .ok (.plain (Text.join (Text.ofString ", ")
        ((a.stats.platforms.map Value.plain).map Value.printed))) := rfl
  refine ⟨_, eval_pipe_args (eval_field h.stats rfl) rfl hjoin, ?_⟩
  rw [List.map_map]
  exact congrArg _ (List.map_id _)

theorem printsAs_efficiency :
    PrintsAs false s (oneDigit (field "stats" "efficiency_score"))
      (Text.ofString (Format.fixed 1 a.stats.efficiency)) :=
  ⟨_, eval_oneDigit (eval_field h.stats rfl), rfl⟩

end Expression

/-! ### Metrics -/

theorem tests_stats {field : String} {c : Analyzed → Bool}
    (hfield : ∀ a : Analyzed, ∃ v, (Value.stats a.stats).field field = .ok v ∧ v.isTrue = !c a)
    (a : Analyzed) (s : Scope) (h : SeesAnalysis a s) :
    ∃ v, eval false s (Parts.field "stats" field) = .ok v ∧ v.isTrue = !c a := by
  obtain ⟨v, hv, htruth⟩ := hfield a
  exact ⟨v, eval_field h.stats hv, htruth⟩

theorem tests_list {α : Type} {field : String} {f : α → Value} (list : ImageStats → List α)
    (hfield : ∀ a, (Value.stats a).field field = .ok (.list ((list a).map f))) (a : Analyzed)
    (s : Scope) (h : SeesAnalysis a s) :
    ∃ v, eval false s (Parts.field "stats" field) = .ok v ∧
      v.isTrue = !(list a.stats).isEmpty := by
  refine ⟨_, eval_field h.stats (hfield _), ?_⟩
  rw [Value.isTrue, List.isEmpty_map]

@[simp] theorem shown_plain (t : Text) : shown false (.plain t) = t := rfl

@[simp] theorem shown_ofString (t : String) : shown false (.ofString t) = Text.ofString t := rfl

@[simp] theorem shown_int (n : Int) : shown false (.int n) = number n := rfl

theorem prints_metrics {right : Bool} {rest : List Segment} {after : Analyzed → Unit → Text}
    (h : PrintsAll SeesAnalysis false " |\n" right rest after) :
    Prints SeesAnalysis (fun a => a.wasted) false ")\n\n" right (metrics ++ rest)
      fun a w => Text.ofString ")\n\n" ++ (a.metricsText w ++ after a ()) := by
  have hplatforms : PrintsAll SeesAnalysis false "" true
      [.text "\n| Platforms | ",
        out ((field "stats" "supported_architectures").pipe "join" [.quoted ", "]),
        .text " |\n"] _ :=
    .first (.out (cut_false _) (fun a s hs => printsAs_platforms hs) (.first (.nil cut_rowEnd)))
  have hdistribution : PrintsAll SeesAnalysis false "" true
      [.text "\n| Base OS | ", out (field "stats" "os_distro"), .text " |\n"] _ :=
    .first (.out (cut_false _) (fun a s hs => printsAs_stats hs rfl) (.first (.nil cut_rowEnd)))
  simp only [metrics, List.append_assoc, List.cons_append, List.nil_append]
  refine .of_eq (.joined (.out (cut_false _) (fun a s hs => printsAs_size hs) (.first
    (.out (cut_false _) (fun a s hs => printsAs_orHyphen hs rfl) (.first
    (.out (cut_false _) (fun a s hs => printsAs_orHyphen hs rfl) (.first
    (.cutCond cut_rowEnd (tests_list (·.platforms) fun _ => rfl) hplatforms (.first
    (.cutCond cut_lineBreak (tests_stats (c := fun a => a.stats.distribution.isEmpty)
        fun a => ⟨_, rfl, rfl⟩) hdistribution (.first
    (.out (cut_false _) (fun a s hs => printsAs_efficiency hs) (.first
    (.needed (cut_false _) (fun a s hs => eval_wasted hs) (.first
    (.out (cut_false _) (fun a s hs => printsAs_stats hs rfl) (.first
    (.out (cut_false _) (fun a s hs => printsAs_stats hs rfl) (.first h))))))))))))))))))) ?_
  intro a w
  simp only [Analyzed.metricsText, Analyzed.optionalMetric, Text.ofString_append,
    List.append_assoc, shown_int, shown_ofString]
  rfl

/-! ### Severities, vulnerabilities, packages and warnings -/

section Parts

variable {right : Bool} {ω : Type} {need : Analyzed → Except Fault ω} {rest : List Segment}
  {after : Analyzed → ω → Text}

section Severity

variable {r : Round Analyzed Text} {s : Scope}
  (h : SeesRound SeesAnalysis "severity" .plain r s)
include h

theorem eval_severity : eval false s (.ident "severity") = .ok (.plain r.element) :=
  congrArg _ h.find

theorem find_options : s.find "options" = .options r.outer.options := by
  obtain ⟨s₀, hs₀, hoptions⟩ := h.find_of_ne "options" (by decide) (by decide)
  exact hoptions.trans hs₀.options

theorem eval_severityCount :
    eval false s severityCount = .ok (.int (r.outer.stats.vulnerabilityCount r.element)) := by
  obtain ⟨s₀, hs₀, hstats⟩ := h.find_of_ne "stats" (by decide) (by decide)
  exact eval_send (congrArg _ (hstats.trans hs₀.stats)) (evalAll_singleton (eval_severity h)) rfl

theorem printsAs_severitySymbol : PrintsAs false s severitySymbol
    (Cell.severityMark r.element r.outer.options.noSymbols) :=
  ⟨_, eval_pipe_args (eval_severity h)
    (evalAll_singleton (eval_field (find_options h) rfl)) rfl, rfl⟩

theorem tests_last : ∃ v, eval false s (.not (field "loop" "last")) = .ok v ∧
    v.isTrue = !(r.index + 1 == r.length) := by
  refine ⟨.bool !(r.index + 1 == r.length), ?_, rfl⟩
  rw [eval, eval_field (h.find_loop (by decide)) rfl]
  rfl

end Severity

theorem prints_severity : PrintsAll (SeesRound SeesAnalysis "severity" .plain) false "" false
    ([out severitySymbol, out (.ident "severity"), .text ": ", out severityCount] ++
      unlessLast [.text " | "])
    fun r _ => r.outer.severityText r.element (r.index + 1 == r.length) := by
  have hbar : PrintsAll (SeesRound SeesAnalysis "severity" .plain) false "" false [.text " | "] _ :=
    .first (.nil (cut_false _))
  rw [← List.append_nil (unlessLast _)]
  refine .of_eq (.out (cut_false _) (fun _ _ hs => printsAs_severitySymbol hs)
    (.out (cut_false _) (fun _ _ hs => ⟨_, eval_severity hs, rfl⟩) (.first
    (.out (cut_false _) (fun _ _ hs => ⟨_, eval_severityCount hs, rfl⟩)
    (.plainCond (cut_false _) (fun _ _ hs => tests_last hs) hbar (.nil (cut_false _)))))))
    fun r _ => ?_
  simp only [Analyzed.severityText, shown_plain, shown_int, Text.ofString_empty_append,
    Text.append_ofString_empty]

theorem prints_securitySummary (h : Prints SeesAnalysis need false "\n\n" right rest after) :
    Prints SeesAnalysis need false " |\n" right (securitySummary ++ rest)
      fun a w => Text.ofString (" |\n" ++ "\n### Security Summary\n") ++
        (a.securityText ++ after a w) :=
  .joined (.plainLoop (fun _ => Analyzed.severities) (cut_false _)
    (fun _ _ hs => congrArg _ hs.severities) prints_severity (.first h))

theorem printsAs_length {α : Type} {e : Expr} {s : Scope} {as : List α} {value : α → Value}
    (h : eval false s e = .ok (.list (as.map value))) :
    PrintsAs false s (e.pipe "length") (number as.length) := by
  refine ⟨_, eval_pipe h rfl, ?_⟩
  rw [List.length_map]
  rfl

theorem printsAs_vulnerabilityCells {s : Scope} {v : Vulnerability}
    (h : s.find "vuln" = .vulnerability v) :
    List.Forall₂ (PrintsAs false s) vulnerabilityCells (Analyzed.vulnerabilityCells v) :=
  .cons ⟨_, eval_pipe (eval_field h rfl) rfl, rfl⟩
    (.cons ⟨_, eval_pipe (eval_field h rfl) rfl, rfl⟩
    (.cons ⟨_, eval_pipe (eval_field h rfl) rfl, rfl⟩
    (.cons ⟨_, eval_pipe (eval_field h rfl) rfl, rfl⟩ .nil)))

theorem prints_vulnerabilities (h : Prints SeesAnalysis need false "" right rest after) :
    Prints SeesAnalysis need false "\n\n" right
      (cutCond (field "stats" "vulnerabilities")
        (vulnerabilities
          [.text "Vulnerabilities Details (",
            out ((field "stats" "vulnerabilities").pipe "length"), .text " found)"]
          (field "stats" "vulnerabilities")) ++ rest)
      fun a w => a.vulnerabilitiesText ++ after a w := by
  have hne : vulnerabilityCells ≠ [] := List.cons_ne_nil _ _
  simp only [vulnerabilities, List.cons_append, List.nil_append]
  refine .of_eq (.cutCond cut_lineBreaks (tests_list (·.vulnerabilities) fun _ => rfl)
    (.first (.joined (.out (cut_false _)
      (fun _ _ hs => printsAs_length (eval_field hs.stats rfl)) (.first (.joined
      (.rows hne (·.stats.vulnerabilities) (fun _ => Analyzed.vulnerabilityCells)
        (cut_vulnerabilitiesHead _) (fun _ _ hs => eval_field hs.stats rfl)
        (fun _ _ hs => printsAs_vulnerabilityCells hs.find)
        (.first (.nil cut_detailsEnd)))))))) h) fun a w => ?_
  simp only [Analyzed.vulnerabilitiesText, Text.ofString_append,
    Text.ofString_empty_append, List.append_assoc]

theorem prints_packages (h : Prints SeesAnalysis need false "" right rest after) :
    Prints SeesAnalysis need false "\n\n" right
      (cutChoice (field "stats" "packages") packages [.text "\n\n*No packages detected.*\n"] ++
        rest) fun a w => a.packagesText ++ after a w := by
  have hcells : ∀ r s, SeesRound SeesAnalysis "pkg" .package r s →
      List.Forall₂ (PrintsAs false s)
        [(field "pkg" "name").pipe "md_cell", (field "pkg" "version").pipe "md_cell"]
        (Analyzed.packageCells r.element) := by
    intro r s hs
    exact .cons ⟨_, eval_pipe (eval_field hs.find rfl) rfl, rfl⟩
      (.cons ⟨_, eval_pipe (eval_field hs.find rfl) rfl, rfl⟩ .nil)
  simp only [packages, List.cons_append]
  refine .of_eq (.cutChoice cut_lineBreaks (tests_list (·.packages) fun _ => rfl)
    (.first (.out (cut_false _) (fun _ _ hs => printsAs_stats hs rfl) (.first
      (.rows (List.cons_ne_nil _ _) (·.stats.packages) (fun _ => Analyzed.packageCells)
        cut_packagesHead (fun _ _ hs => eval_field hs.stats rfl) hcells
        (.first (.nil cut_detailsEnd))))))
    (.first (.nil cut_noPackages)) h) fun a w => ?_
  simp only [Analyzed.packagesText, Text.ofString_empty_append, List.append_assoc, shown_int]

theorem prints_warnings (h : Prints SeesAnalysis need false "" right rest after) :
    Prints SeesAnalysis need false "\n" right
      (cutCond (field "stats" "warnings") warnings ++ rest)
      fun a w => a.warningsText ++ after a w := by
  have hwarning : ∀ r s, SeesRound SeesAnalysis "warning" .ofString r s →
      PrintsAs false s ((Expr.ident "warning").pipe "md_cell") (Cell.plain r.element) := by
    intro r s hs
    exact ⟨_, eval_pipe (congrArg _ hs.find) rfl, rfl⟩
  simp only [warnings, List.cons_append]
  refine .of_eq (.cutCond cut_lineBreak (tests_list (·.warnings) fun _ => rfl)
    (.first (.cutLoop (·.stats.warnings)
      (fun _ (w : String) => Text.ofString "\n> - " ++ Cell.plain w) cut_warningsHead
      (fun _ _ hs => eval_field hs.stats rfl)
      (.of_eq (.first (.out (cut_false _) hwarning (.first (.nil cut_lineBreak)))) fun _ _ => ?_)
      (.first (.nil cut_lineBreak)))) h) fun a w => ?_
  · rw [Text.append_ofString_empty]
  · simp only [Analyzed.warningsText, Text.ofString_empty_append, Text.append_ofString_empty]

/-- The analysis of an image. -/
theorem exists_prints_analysis : ∃ body,
    analysis = .text "\n" :: cutCond (.ident "stats") body ++ [Segment.text "\n"] ∧
    Prints SeesAnalysis (fun a => a.wasted) false "" true body Analyzed.text := by
  refine ⟨_, rfl, ?_⟩
  simp only [List.append_assoc, List.cons_append, List.nil_append]
  refine .of_eq (.first (.out (cut_false _) (fun _ _ hs => printsAs_stats hs rfl) (.first
    (prints_metrics (prints_securitySummary (prints_vulnerabilities (.first (prints_packages
      (.first (prints_warnings (.first (.nil cut_lineBreak)))))))))))) fun a w => ?_
  simp only [Analyzed.text, Analyzed.headText, Text.ofString_append,
    Text.append_ofString_empty, List.append_assoc, shown_ofString]

end Parts

/-! ## Reports about one image -/

structure ImageReport where
  doc : Documentation
  image : Option Sized
  options : ReportOptions

namespace ImageReport

variable (r : ImageReport)

def stats : Option ImageStats := r.image.map (·.stats)

def analyzed : Option Analyzed := r.image.map fun a => ⟨a, r.options⟩

/-- The printed form of what is wasted in the image, or the fault of a template that asks for it. -/
def wasted : Except Fault String := r.analyzed.elim (.ok "") (·.wasted)

def analysisText (wasted : String) : Text := r.analyzed.elim [] (·.text wasted)

end ImageReport

/-- What is seen in a report about one image. -/
structure SeesReport (r : ImageReport) (s : Scope) : Prop where
  items : s.find "items" = .list (r.doc.items.map .item)
  args : s.find "args" = .list ((r.doc.ofKind "ARG").map .item)
  envs : s.find "envs" = .list ((r.doc.ofKind "ENV").map .item)
  labels : s.find "labels" = .list ((r.doc.ofKind "LABEL").map .item)
  ports : s.find "ports" = .list ((r.doc.ofKind "EXPOSE").map .item)
  stats : s.find "stats" = r.image.elim .null fun a => .stats a.stats
  severities : s.find "severities" = .texts Analyzed.severities
  options : s.find "options" = .options r.options

theorem sees_imageValues (r : ImageReport) (data : Json) :
    SeesReport r { globals := Report.imageValues r.doc r.stats r.options data } := by
  refine ⟨rfl, rfl, rfl, rfl, rfl, ?_, rfl, rfl⟩
  cases hr : r.image <;> simp [ImageReport.stats, hr] <;> rfl

/-- The analysis is printed if there is an image. -/
theorem tests_stats_ident (r : ImageReport) (s : Scope) (h : SeesReport r s) :
    ∃ v, eval false s (.ident "stats") = .ok v ∧ v.isTrue = r.analyzed.isSome ∧
      ∀ a ∈ r.analyzed, SeesAnalysis a s := by
  refine ⟨_, congrArg _ h.stats, ?_⟩
  cases hr : r.image with
  | none => simp [ImageReport.analyzed, hr, Value.isTrue]
  | some a =>
    have hstats := h.stats
    rw [hr] at hstats
    refine ⟨by simp [ImageReport.analyzed, hr, Value.isTrue], ?_⟩
    rintro b hb
    obtain rfl : ⟨a, r.options⟩ = b := by simpa [ImageReport.analyzed, hr] using hb
    exact ⟨hstats, h.severities, h.options⟩

theorem prints_analysis {left right : Bool} {front : String} {rest : List Segment}
    {last : ImageReport → Unit → Text} (hcut : cut left true (front ++ "\n") = "")
    (h : PrintsAll SeesReport false "\n" right rest last) :
    Prints SeesReport ImageReport.wasted left front right (analysis ++ rest)
      fun r w => r.analysisText w ++ last r () := by
  obtain ⟨body, hanalysis, hbody⟩ := exists_prints_analysis
  rw [hanalysis]
  simp only [cutCond, cutTag, List.append_assoc, List.cons_append, List.nil_append]
  refine .of_eq (.joined (.givenNeeded ImageReport.analyzed (·.wasted) "" hcut tests_stats_ident
    hbody (.first h))) fun r w => ?_
  rw [Text.ofString_empty_append]
  rfl

end Markdown
end ContainerDocs
