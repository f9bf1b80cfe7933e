import ContainerDocs.Proofs.Report.Analysis

/-!
# Reports about one image in Markdown

What the default, the minimal, the detailed and the compact template print for the items of a
Dockerfile and an image.

## Main definitions

* `Markdown.defaultReport`, `Markdown.minimalReport`, `Markdown.detailedReport`,
  `Markdown.compactReport` — what the templates print.

## Main statements

* `Markdown.prints_defaultImage`, `Markdown.prints_minimalImage`,
  `Markdown.exists_detailedTemplate`, `Markdown.prints_compactImage` — the templates print these
  texts.
-/

namespace ContainerDocs
namespace Markdown

open Parts Scope
open Segment (cut cut_false)

/-! ## The default template -/

def defaultReport (r : ImageReport) (wasted : String) : Text :=
  Text.ofString "## Configuration\n" ++
  (if r.doc.items.isEmpty then Text.ofString "\n*No documented configuration found.*"
    else Text.ofString ("\n| Name | Type | Description | Default | Required |\n" ++
        "|------|------|-------------|---------|----------|") ++
      r.doc.items.flatMap fun i => line (defaultCells r.options.noSymbols i)) ++
  r.analysisText wasted ++ Text.ofString "\n"

/-- A round of a loop over items. -/
theorem sees_item {r : Round ImageReport Item} {s : Scope}
    (h : SeesRound SeesReport "item" .item r s) :
    s.find "item" = .item r.element ∧ s.find "options" = .options r.outer.options := by
  obtain ⟨s₀, hs₀, hoptions⟩ := h.find_of_ne "options" (by decide) (by decide)
  exact ⟨h.find, hoptions.trans hs₀.options⟩

theorem prints_defaultImage :
    Prints SeesReport ImageReport.wasted false "" false defaultImage defaultReport := by
  have hsplit : defaultImage = .text "## Configuration\n" ::
      (.tag false false (.ifTag (.ident "items")) ::
        ((Segment.text "\n| Name | Type | Description | Default | Required |\n" ::
            Segment.text "|------|------|-------------|---------|----------|\n" ::
            (rows "item" (.ident "items")
              [itemName, field "item" "type", itemDescription, itemValue, requiredMark] ++
              [Segment.text "\n"])) ++
          Segment.tag true false .elseTag ::
            ([Segment.text "\n*No documented configuration found.*\n"] ++
              Segment.tag true false .endIf :: Segment.text "\n" :: (analysis ++ [])))) := by
    simp [defaultImage, Parts.tag, cutTag]
  have hitems : ∀ r s, SeesReport r s → ∃ v, eval false s (.ident "items") = .ok v ∧
      v.isTrue = !r.doc.items.isEmpty := by
    intro r s hs
    refine ⟨_, congrArg _ hs.items, ?_⟩
    rw [Value.isTrue, List.isEmpty_map]
  rw [hsplit]
  refine .of_eq (.first (.choice (cut_false _) hitems
    (.first (.joined (.rows (List.cons_ne_nil _ _) (·.doc.items)
      (fun r => defaultCells r.options.noSymbols) cut_defaultHead
      (fun _ _ hs => congrArg _ hs.items)
      (fun _ _ hs => prints_defaultCells (sees_item hs).1 (sees_item hs).2)
      (.first (.nil cut_lineBreak)))))
    (.first (.nil cut_defaultNothing))
    (.first (prints_analysis cut_lineBreaks (.nil (cut_false _)))))) fun r w => ?_
  simp only [defaultReport, Text.append_ofString_empty, List.append_assoc]

/-! ## The minimal template -/

def imageLine (a : Analyzed) : Text :=
  Text.ofString "\n\n**" ++ Text.ofString a.stats.imageTag ++ Text.ofString "**: " ++
  Text.ofString a.size ++ Text.ofString ", " ++ number a.stats.layers ++
  Text.ofString " layers, " ++ number a.stats.vulnerabilities.length ++
  Text.ofString " vulnerabilities"

def minimalReport (r : ImageReport) : Text :=
  Text.ofString "| Name | Description | Default |\n|------|-------------|---------|" ++
  (r.doc.items.flatMap fun i => line (minimalCells i)) ++ r.analyzed.elim [] imageLine ++
  Text.ofString "\n"

theorem cut_imageLine : cut false true " vulnerabilities\n" = " vulnerabilities" :=
  (Segment.cut_ofList ..).trans rfl

theorem prints_minimalImage :
    PrintsAll SeesReport false "" false minimalImage fun r _ => minimalReport r := by
  have htotal : ∀ a s, SeesAnalysis a s →
      PrintsAs false s (field "stats" "total_vulnerabilities")
        (number a.stats.vulnerabilities.length) :=
    fun a _ hs => printsAs_stats (v := .int a.stats.vulnerabilities.length) hs rfl
  simp only [minimalImage, cutCond, cutTag, List.append_assoc, List.cons_append, List.nil_append]
  refine .of_eq (.first (.rows (List.cons_ne_nil _ _) (·.doc.items) (fun _ => minimalCells)
    cut_minimalHead (fun _ _ hs => congrArg _ hs.items)
    (fun _ _ hs => prints_minimalCells (sees_item hs).1)
    (.first (.given ImageReport.analyzed cut_lineBreak tests_stats_ident
      (.first (.out (cut_false _) (fun _ _ hs => printsAs_stats hs rfl) (.first
        (.out (cut_false _) (fun _ _ hs => printsAs_size hs) (.first
        (.out (cut_false _) (fun _ _ hs => printsAs_stats hs rfl) (.first
        (.out (cut_false _) htotal (.first (.nil cut_imageLine))))))))))
      (.first (.nil (cut_false _))))))) fun r _ => ?_
  simp only [minimalReport, Text.ofString_empty_append, List.append_assoc]
  cases r.analyzed with
  | none => rfl
  | some a => simp only [imageLine, Option.elim_some, shown_ofString, shown_int, List.append_assoc]

/-! ## The detailed template -/

namespace Analyzed

variable (a : Analyzed)

def firstSeverities : List Text := severities.take 4

def badge (severity : Text) : Text :=
  Cell.badge (a.stats.vulnerabilityCount severity != 0)
    (number (a.stats.vulnerabilityCount severity)) severity (Text.ofString a.options.badgeUrl)

def badgesText : Text :=
  Text.ofString "\n\n" ++ firstSeverities.flatMap fun severity =>
    a.badge severity ++ Text.ofString " "

def scanText (t : Timestamp) : Text :=
  Text.ofString "\n\n*Vulnerability scan: " ++ Text.strip (Text.ofChars t.heading) ++
  Text.ofString "*"

end Analyzed

namespace ImageReport

variable (r : ImageReport)

def badged : Option Analyzed :=
  r.analyzed.filter fun a => !(Text.ofString a.options.badgeUrl).isEmpty

def scanned : Option Timestamp := r.analyzed.bind (·.stats.scanned)

end ImageReport

def detailedReport (r : ImageReport) (wasted : String) : Text :=
  Text.ofString "# Docker Image Analysis" ++ r.badged.elim [] (·.badgesText) ++
  Text.ofString "\n\n## Configuration" ++
  (if r.doc.items.isEmpty then Text.ofString "\n\n*No documented configuration found.*" else []) ++
  itemTableText r.options.noSymbols (r.doc.ofKind "ARG") "Build Arguments" ++
  itemTableText r.options.noSymbols (r.doc.ofKind "ENV") "Environment Variables" ++
  itemTableText r.options.noSymbols (r.doc.ofKind "LABEL") "Labels" ++
  portTableText (r.doc.ofKind "EXPOSE") ++ r.analysisText wasted ++
  r.scanned.elim [] Analyzed.scanText ++ Text.ofString "\n"

/-- What is seen below the named part that prints a table of items. -/
structure SeesDetailed (r : ImageReport) (s : Scope) : Prop extends SeesReport r s where
  part : ∃ s₀, Value.lookup s.parts "item_table" =
    some (part false s₀ ["title", "rows"] itemTableNodes)
  globals : Value.lookup s.globals "options" = some (.options r.options)

/-! ### The parts of the template -/

def itemTableBody : List Segment :=
  .text "\n" :: (cutCond (.ident "rows")
    (.text "\n\n### " :: out (.ident "title") ::
      .text "\n\n| Name | Description | Default | Required |\n" ::
      .text "|------|-------------|---------|----------|\n" ::
      (rows "item" (.ident "rows") [itemName, itemDescription, itemValue, requiredMark] ++
        [Segment.text "\n"])) ++ [Segment.text "\n"])

def itemTables (rest : List Segment) : List Segment :=
  .text "\n\n## Configuration\n" ::
    (cutCond (.not (.ident "items")) [.text "\n\n*No documented configuration found.*\n"] ++
    .text "\n" :: itemsOf "Build Arguments" "args" :: .text "\n" ::
      itemsOf "Environment Variables" "envs" :: .text "\n" :: itemsOf "Labels" "labels" ::
      .text "\n" :: (cutCond (.ident "ports")
        (.text "\n\n### Exposed Ports\n\n| Port | Description |\n|------|-------------|\n" ::
          (rows "item" (.ident "ports") [itemName, itemDescription] ++ [Segment.text "\n"])) ++
        .text "\n" :: rest))

def scanLine : List Segment :=
  .text "\n" :: (cutCond (.and (.ident "stats") (field "stats" "scan_timestamp"))
    [.text "\n\n*Vulnerability scan: ",
      out (((field "stats" "scan_timestamp").send "strftime"
        [.quoted "%Y-%m-%d %H:%M:%S %Z"]).pipe "trim"),
      .text "*\n"] ++ [Segment.text "\n"])

def detailedBody : List Segment :=
  .text "\n" :: .text "# Docker Image Analysis\n" :: (badges ++ itemTables (analysis ++ scanLine))

theorem detailedImage_eq : detailedImage = .text "\n" ::
    .tag true false (.defineTag "item_table" (["title", "rows"].map (·, none))) ::
      (itemTableBody ++ .tag true true .endDefine :: detailedBody) := by
  simp only [detailedImage, itemTable, List.append_assoc, List.cons_append, List.nil_append,
    cutTag, itemTableBody, detailedBody, itemTables, scanLine]
  rfl

theorem stands_itemTable : Segment.Stands false "" true itemTableBody itemTableNodes := by
  have hnodes : itemTableNodes = Node.ofText (cut false true "\n") ++
      .cond (.ident "rows")
        (Node.ofText (cut false false "\n\n### ") ++ .output (.ident "title") ::
          (Node.ofText (cut false true ("\n\n| Name | Description | Default | Required |\n" ++
              "|------|-------------|---------|----------|\n")) ++
            .loop (.one "item") (.ident "rows") none
              (rowNodes [itemName, itemDescription, itemValue, requiredMark]) [] ::
            Node.ofText (cut false true "\n"))) [] :: Node.ofText (cut false true "\n") := by
    rw [cut_lineBreak, cut_detailedHead, cut_false]
    rfl
  rw [hnodes]
  exact .first (.cutCond (.first (.out (.first (.text
    (.rows (List.cons_ne_nil _ _) (.first (.nil ..))))))) (.first (.nil ..)))

theorem eval_firstSeverities {a : Analyzed} {s : Scope} (hs : SeesAnalysis a s) :
    eval false s firstSeverities = .ok (.list (Analyzed.firstSeverities.map .plain)) := by
  have hseverities : eval false s (.ident "severities") = .ok (.texts Analyzed.severities) :=
    congrArg _ hs.severities
  rw [firstSeverities, eval, hseverities]
  rfl

/-- The badges of the first severities. -/
theorem prints_badges : PrintsAll SeesAnalysis false "" true
    (.text "\n\n" ::
      (eachOfFirst
        [out (severityCount.pipe "badge" [.ident "severity", field "options" "badge_base_url"]),
          .text " "] ++ [Segment.text "\n"])) fun a _ => a.badgesText := by
  have hbadge : ∀ (r : Round Analyzed Text) s, SeesRound SeesAnalysis "severity" .plain r s →
      PrintsAs false s
        (severityCount.pipe "badge" [.ident "severity", field "options" "badge_base_url"])
        (r.outer.badge r.element) := by
    intro r s hs
    have hurl : eval false s (field "options" "badge_base_url") =
        .ok (.ofString r.outer.options.badgeUrl) :=
      eval_field (find_options hs) rfl
    have hargs : evalAll false s [.ident "severity", field "options" "badge_base_url"] =
        .ok [.plain r.element, .ofString r.outer.options.badgeUrl] := by
      rw [evalAll, eval_severity hs, ok_bind, evalAll_singleton hurl]
      rfl
    exact ⟨_, eval_pipe_args (eval_severityCount hs) hargs rfl, rfl⟩
  have hround : PrintsAll (SeesRound SeesAnalysis "severity" .plain) false "" false
      [out (severityCount.pipe "badge" [.ident "severity", field "options" "badge_base_url"]),
        .text " "] fun r _ => r.outer.badge r.element ++ Text.ofString " " := by
    refine .of_eq (.out (cut_false _) hbadge (.first (.nil (cut_false _)))) fun _ _ => ?_
    rw [Text.ofString_empty_append]
  simp only [eachOfFirst, Parts.tag, List.cons_append]
  refine .of_eq (.first (.loop (fun _ => Analyzed.firstSeverities) (cut_false _)
    (fun _ _ hs => eval_firstSeverities hs) hround (.first (.nil cut_lineBreak)))) fun a _ => ?_
  simp only [Prints.flatMap_zipIdx fun severity => a.badge severity ++ Text.ofString " ",
    Text.append_ofString_empty, Analyzed.badgesText]

theorem cut_scanEnd : cut false true "*\n" = "*" := rfl

def SeesScan (t : Timestamp) (s : Scope) : Prop :=
  ∃ stats : ImageStats, s.find "stats" = .stats stats ∧ stats.scanned = some t

theorem prints_scan : PrintsAll SeesScan false "" true
    [.text "\n\n*Vulnerability scan: ",
      out (((field "stats" "scan_timestamp").send "strftime"
        [.quoted "%Y-%m-%d %H:%M:%S %Z"]).pipe "trim"),
      .text "*\n"] fun t _ => Analyzed.scanText t := by
  have htime : ∀ t s, SeesScan t s → PrintsAs false s
      (((field "stats" "scan_timestamp").send "strftime"
        [.quoted "%Y-%m-%d %H:%M:%S %Z"]).pipe "trim")
      (Text.strip (Text.ofChars t.heading)) := by
    rintro t s ⟨stats, hstats, hscanned⟩
    have hfield : (Value.stats stats).field "scan_timestamp" = .ok (.moment t) := by
      cases stats
      cases hscanned
      rfl
    have hsend : (Value.moment t).send "strftime" [.ofString "%Y-%m-%d %H:%M:%S %Z"] =
        .ok (.plain (Text.ofChars t.heading)) := by
      simp [Value.send, Value.ofString]
    exact ⟨_, eval_pipe (eval_send (eval_field hstats hfield) (evalAll_singleton rfl) hsend) rfl,
      rfl⟩
  refine .of_eq (.first (.out (cut_false _) htime (.first (.nil cut_scanEnd)))) fun t _ => ?_
  simp only [Analyzed.scanText, List.append_assoc]

/-- A field of the image or of the options is looked at if there is an image. -/
theorem eval_and {r : ImageReport} {s : Scope} {e : Expr} (h : SeesReport r s) :
    eval false s (.and (.ident "stats") e) =
      if r.analyzed.isSome then eval false s e else .ok .null := by
  have hstats : eval false s (.ident "stats") = .ok (r.image.elim .null fun a => .stats a.stats) :=
    congrArg _ h.stats
  rw [eval, hstats, ok_bind, ImageReport.analyzed]
  cases r.image <;> rfl

theorem tests_badged (r : ImageReport) (s : Scope) (h : SeesReport r s) :
    ∃ v, eval false s (.and (.ident "stats") (field "options" "badge_base_url")) = .ok v ∧
      v.isTrue = r.badged.isSome ∧ ∀ a ∈ r.badged, SeesAnalysis a s := by
  obtain ⟨-, -, -, hsees⟩ := tests_stats_ident r s h
  have hurl : eval false s (field "options" "badge_base_url") =
      .ok (.ofString r.options.badgeUrl) := eval_field h.options rfl
  rw [eval_and h, hurl, ImageReport.badged]
  cases hr : r.analyzed with
  | none => exact ⟨_, rfl, rfl, fun _ ha => by cases ha⟩
  | some a =>
    have hoptions : a.options = r.options := by
      obtain ⟨b, -, rfl⟩ := Option.map_eq_some_iff.1 hr
      rfl
    refine ⟨_, rfl, ?_, fun b hb => hsees b ?_⟩
    · rw [Option.filter_some, hoptions]
      cases hempty : (Text.ofString r.options.badgeUrl).isEmpty <;>
        simp [Value.ofString, Value.isTrue, hempty]
    · rw [hr]
      exact (Option.mem_filter_iff.1 hb).1

theorem tests_scanned (r : ImageReport) (s : Scope) (h : SeesReport r s) :
    ∃ v, eval false s (.and (.ident "stats") (field "stats" "scan_timestamp")) = .ok v ∧
      v.isTrue = r.scanned.isSome ∧ ∀ t ∈ r.scanned, SeesScan t s := by
  obtain ⟨-, -, -, hsees⟩ := tests_stats_ident r s h
  rw [eval_and h, ImageReport.scanned]
  cases hr : r.analyzed with
  | none => exact ⟨_, rfl, rfl, fun _ ht => by cases ht⟩
  | some a =>
    have hstats := (hsees a hr).stats
    refine ⟨_, eval_field hstats rfl, ?_, fun t ht => ⟨a.stats, hstats, ht⟩⟩
    rw [Option.bind_some]
    cases a.stats.scanned <;> rfl

/-- The tables of items below the badges. -/
theorem prints_detailedItems {rest : List Segment} {text : ImageReport → String → Text}
    (h : Prints SeesDetailed ImageReport.wasted false "\n" false rest text) :
    Prints SeesDetailed ImageReport.wasted false "" false (itemTables rest)
      fun r w => Text.ofString "\n\n## Configuration" ++
        (if r.doc.items.isEmpty then Text.ofString "\n\n*No documented configuration found.*"
          else []) ++
        itemTableText r.options.noSymbols (r.doc.ofKind "ARG") "Build Arguments" ++
        itemTableText r.options.noSymbols (r.doc.ofKind "ENV") "Environment Variables" ++
        itemTableText r.options.noSymbols (r.doc.ofKind "LABEL") "Labels" ++
        portTableText (r.doc.ofKind "EXPOSE") ++ text r w := by
  have hnone : ∀ r s, SeesDetailed r s → ∃ v, eval false s (.not (.ident "items")) = .ok v ∧
      v.isTrue = !!r.doc.items.isEmpty := by
    intro r s hs
    have hitems : eval false s (.ident "items") = .ok (.list (r.doc.items.map .item)) :=
      congrArg _ hs.items
    refine ⟨.bool r.doc.items.isEmpty, ?_, (Bool.not_not _).symm⟩
    rw [eval, hitems, ok_bind]
    cases r.doc.items <;> rfl
  have htable : ∀ (title source : String) (items : ImageReport → List Item),
      (∀ r s, SeesDetailed r s → s.find source = .list ((items r).map .item)) →
      ∀ r s, SeesDetailed r s →
        PrintsAs false s (.call (.ident "item_table") [.quoted title, .ident source] [])
          (itemTableText r.options.noSymbols (items r) title) := by
    intro title source items hsource r s hs
    obtain ⟨s₀, hpart⟩ := hs.part
    exact printsAs_itemTable title hpart (hsource r s hs) hs.globals
  have hports : ∀ r s, SeesDetailed r s → ∃ v, eval false s (.ident "ports") = .ok v ∧
      v.isTrue = !(r.doc.ofKind "EXPOSE").isEmpty := by
    intro r s hs
    refine ⟨_, congrArg _ hs.ports, ?_⟩
    rw [Value.isTrue, List.isEmpty_map]
  refine .of_eq (.first (.cutCond cut_configuration hnone (.first (.nil cut_detailedNothing))
    (.first (.output cut_lineBreak (htable _ _ (·.doc.ofKind "ARG") fun _ _ hs => hs.args) (.first
    (.output cut_lineBreak (htable _ _ (·.doc.ofKind "ENV") fun _ _ hs => hs.envs) (.first
    (.output cut_lineBreak (htable _ _ (·.doc.ofKind "LABEL") fun _ _ hs => hs.labels) (.first
    (.cutCond cut_lineBreak hports
      (.first (.rows (List.cons_ne_nil _ _) (·.doc.ofKind "EXPOSE") (fun _ => portCells)
        cut_portHead (fun _ _ hs => congrArg _ hs.ports)
        (fun _ _ hs => prints_portCells (sees_item (hs.mono fun _ _ h => h.toSeesReport)).1)
        (.first (.nil cut_lineBreak)))) (.first h))))))))))) fun r w => ?_
  have hnote : ∀ (b : Bool) (t : Text), (if !b then [] else t) = if b then t else [] := by
    intro b t
    cases b <;> rfl
  simp only [portTableText, Text.ofString_empty_append, Text.append_ofString_empty,
    List.append_assoc, hnote]

theorem prints_scanLine : PrintsAll SeesReport false "\n" false scanLine
    fun r _ => r.scanned.elim [] Analyzed.scanText ++ Text.ofString "\n" := by
  simp only [scanLine, cutCond, cutTag, List.cons_append, List.nil_append]
  refine .of_eq (.joined (.given ImageReport.scanned cut_lineBreaks tests_scanned prints_scan
    (.first (.nil (cut_false _))))) fun _ _ => ?_
  rw [Text.ofString_empty_append]

theorem prints_detailedBody :
    Prints SeesDetailed ImageReport.wasted true "" false detailedBody detailedReport := by
  have hanalysis := prints_analysis cut_lineBreaks prints_scanLine
  have hitems := prints_detailedItems (hanalysis.mono fun _ _ hs => SeesDetailed.toSeesReport hs)
  simp only [detailedBody, badges, cutCond, cutTag, List.append_assoc, List.cons_append,
    List.nil_append]
  refine .of_eq (.first (.joined (.given ImageReport.badged cut_detailedStart
    (fun r s hs => tests_badged r s hs.toSeesReport) prints_badges hitems))) fun r w => ?_
  simp only [detailedReport, List.append_assoc]

theorem exists_detailedTemplate : ∃ t, Template.ofSegments? detailedImage = some t ∧
    ∀ (r : ImageReport) data,
      t.render false (Report.imageValues r.doc r.stats r.options data) =
        r.wasted.map (detailedReport r) := by
  obtain ⟨nodes, hnodes, hrun⟩ := prints_detailedBody
  have hstands : Segment.Stands false "" false detailedImage
      (Node.ofText (cut false true "\n") ++
        .define "item_table" (["title", "rows"].map (·, none)) itemTableNodes :: nodes) := by
    rw [detailedImage_eq]
    exact .first (.define stands_itemTable hnodes)
  refine ⟨_, hstands.ofSegments?_eq, fun r data => ?_⟩
  let start : Scope := { globals := Report.imageValues r.doc r.stats r.options data }
  let s : Scope := { start with
    parts := [("item_table", part false start ["title", "rows"] itemTableNodes)] }
  have hstart := sees_imageValues r data
  have hs : SeesDetailed r s := by
    refine ⟨⟨hstart.items, hstart.args, hstart.envs, hstart.labels, hstart.ports, hstart.stats,
      hstart.severities, hstart.options⟩, ⟨start, rfl⟩, rfl⟩
  rw [cut_lineBreak, Template.render]
  change (runAll false start (.define "item_table" (["title", "rows"].map (·, none))
    itemTableNodes :: nodes) >>= _) = _
  rw [runAll, run_define, ok_bind]
  change ((runAll false s nodes >>= _) >>= _) = _
  rw [hrun r s hs]
  cases r.wasted <;> rfl

/-! ## The compact template -/

namespace Analyzed

/-- The first character of a severity and its count, with a blank behind it unless it is the last
one. -/
def countText (a : Analyzed) (severity : Text) (isLast : Bool) : Text :=
  severity.take 1 ++ Text.ofString ":" ++ number (a.stats.vulnerabilityCount severity) ++
  if isLast then [] else Text.ofString " "

def countsText (a : Analyzed) : Text :=
  firstSeverities.zipIdx.flatMap fun p => a.countText p.1 (p.2 + 1 == firstSeverities.length)

def compactLine (a : Analyzed) : Text :=
  Text.ofString "\n" ++ Text.ofString a.stats.imageTag ++ Text.ofString ": " ++
  Text.ofString a.size ++ Text.ofString " | " ++ number a.stats.layers ++
  Text.ofString " layers | " ++ Text.ofString (Format.fixed 1 a.stats.efficiency) ++
  Text.ofString "% efficient | " ++ a.countsText

end Analyzed

def compactReport (r : ImageReport) : Text :=
  r.doc.items.flatMap bullet ++ r.analyzed.elim [] Analyzed.compactLine ++ Text.ofString "\n"

def bulletBody : List Segment :=
  .text "\n- " :: out itemName :: .text " (" :: out (field "item" "type") :: .text ")" ::
    (Parts.cond (field "item" "value") [.text " = ", out itemValue] ++
    (Parts.cond (field "item" "required") [.text " **required**"] ++
    (Parts.cond (field "item" "description") [.text ": ", out (field "item" "description")] ++
      [Segment.text "\n"])))

def countBody : List Segment :=
  out (.item (.ident "severity") (.number 0)) :: .text ":" :: out severityCount ::
    unlessLast [.text " "]

def compactBody : List Segment :=
  .text "\n" :: out (field "stats" "image_tag") :: .text ": " :: out (field "stats" "size_mb") ::
    .text " | " :: out (field "stats" "total_layers") :: .text " layers | " ::
    out (oneDigit (field "stats" "efficiency_score")) :: .text "% efficient | " ::
    (eachOfFirst countBody ++ [Segment.text "\n"])

theorem compactImage_eq : compactImage = .tag false true (each "item" "items") ::
    (bulletBody ++ Segment.tag false false .endFor :: Segment.text "\n" ::
      (cutCond (.ident "stats") compactBody ++ [Segment.text "\n"])) := by
  simp only [compactImage, bulletBody, compactBody, countBody, Parts.tag, List.append_assoc,
    List.cons_append, List.nil_append]

theorem prints_bullet : PrintsAll (SeesRound SeesReport "item" .item) true "" false bulletBody
    fun r _ => bullet r.element := by
  have htest : ∀ {name : String} (v : Item → Value),
      (∀ i, (Value.item i).field name = .ok (v i)) →
      ∀ (r : Round ImageReport Item) s, SeesRound SeesReport "item" .item r s →
        ∃ w, eval false s (field "item" name) = .ok w ∧ w.isTrue = !!(v r.element).isTrue :=
    fun v hv r s hs => ⟨_, eval_field hs.find (hv r.element), (Bool.not_not _).symm⟩
  refine .of_eq (.first (.out cut_bullet (fun _ _ hs => printsAs_itemName hs.find) (.first
    (.out (cut_false _) (fun _ _ hs => printsAs_itemType hs.find) (.first
    (.plainCond (cut_false _) (htest (fun i => .ofString i.value) fun _ => rfl)
      (.first (.out (cut_false _) (fun _ _ hs => printsAs_itemValue hs.find) (.nil (cut_false _))))
    (.plainCond (cut_false _) (htest (fun i => .bool i.required) fun _ => rfl)
      (.first (.nil (cut_false _)))
    (.plainCond (cut_false _) (htest (fun i => .ofString i.description) fun _ => rfl)
      (.first (.out (cut_false _) (fun _ _ hs => ⟨_, eval_field hs.find rfl, rfl⟩)
        (.nil (cut_false _))))
    (.first (.nil (cut_false _)))))))))))
    fun r _ => ?_
  have hswap : ∀ (b : Bool) (t : Text), (if !b then [] else t) = if b then t else [] := by
    intro b t
    cases b <;> rfl
  have hrequired : (Value.bool r.element.required).isTrue = r.element.required := rfl
  simp only [bullet, hswap, hrequired, Text.ofString_empty_append, Text.append_ofString_empty,
    shown_ofString]

theorem prints_count : PrintsAll (SeesRound SeesAnalysis "severity" .plain) false "" false countBody
    fun r _ => r.outer.countText r.element (r.index + 1 == r.length) := by
  have hfirst : ∀ (r : Round Analyzed Text) s, SeesRound SeesAnalysis "severity" .plain r s →
      PrintsAs false s (.item (.ident "severity") (.number 0)) (r.element.take 1) := by
    intro r s hs
    have helement : ∃ v, (Value.plain r.element).element (.int 0) = .ok v ∧
        shown false v = r.element.take 1 := by
      cases r.element with
      | nil => exact ⟨_, rfl, rfl⟩
      | cons c rest =>
        have hplace : Value.place? (c :: rest).length 0 = some 0 := by simp [Value.place?]
        have hvalue : (Value.plain (c :: rest)).element (.int 0) = .ok
            (((Value.place? (c :: rest).length 0).bind ((c :: rest)[·]?)).map
              (fun c => .plain [c]) |>.getD ((Value.plain (c :: rest)).noElement (.int 0))) := rfl
        exact ⟨_, hvalue.trans (by rw [hplace]), rfl⟩
    obtain ⟨v, hv, hshown⟩ := helement
    refine ⟨v, ?_, hshown⟩
    rw [eval, eval_severity hs, ok_bind]
    exact hv
  rw [countBody, ← List.append_nil (unlessLast _)]
  refine .of_eq (.out (cut_false _) hfirst (.first
    (.out (cut_false _) (fun _ _ hs => ⟨_, eval_severityCount hs, rfl⟩)
    (.plainCond (cut_false _) (fun _ _ hs => tests_last hs) (.first (.nil (cut_false _)))
      (.nil (cut_false _)))))) fun r _ => ?_
  simp only [Analyzed.countText, shown_int, Text.ofString_empty_append,
    Text.append_ofString_empty, List.append_assoc]

theorem prints_compactLine :
    PrintsAll SeesAnalysis false "" true compactBody fun a _ => a.compactLine := by
  simp only [compactBody, eachOfFirst, Parts.tag, List.cons_append, List.append_assoc,
    List.nil_append]
  refine .of_eq (.first (.out (cut_false _) (fun _ _ hs => printsAs_stats hs rfl) (.first
    (.out (cut_false _) (fun _ _ hs => printsAs_size hs) (.first
    (.out (cut_false _) (fun _ _ hs => printsAs_stats hs rfl) (.first
    (.out (cut_false _) (fun _ _ hs => printsAs_efficiency hs) (.first
    (.loop (fun _ => Analyzed.firstSeverities) (cut_false _) (fun _ _ hs => eval_firstSeverities hs)
      prints_count (.first (.nil cut_lineBreak)))))))))))) fun a _ => ?_
  simp only [Analyzed.compactLine, Analyzed.countsText, shown_ofString, shown_int,
    Text.append_ofString_empty, List.append_assoc]

theorem prints_compactImage :
    PrintsAll SeesReport false "" false compactImage fun r _ => compactReport r := by
  rw [compactImage_eq]
  simp only [cutCond, cutTag, List.append_assoc, List.cons_append, List.nil_append]
  refine .of_eq (.loop (·.doc.items) (cut_false _) (fun _ _ hs => congrArg _ hs.items) prints_bullet
    (.first (.given ImageReport.analyzed cut_lineBreak tests_stats_ident prints_compactLine
      (.first (.nil (cut_false _)))))) fun r _ => ?_
  simp only [compactReport, Prints.flatMap_zipIdx bullet, Text.ofString_empty_append,
    List.append_assoc]

end Markdown
end ContainerDocs
