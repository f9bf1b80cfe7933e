import ContainerDocs.Proofs.Report.Fence
import ContainerDocs.Proofs.Report.ImageText

/-!
# Tags in reports

A built-in Markdown template shows some texts of every item behind fences. So a tag is in its report
exactly if one of these texts holds it.

## Main definitions

* `IsTag` — a pattern in angle brackets that holds no code point of a fence.
* `Markdown.shown` — the texts of an item that a template shows.

## Main statements

* `Markdown.exists_image_template` — a tag is in a report exactly if a shown text holds it.
-/

namespace ContainerDocs

variable {p t : Text}

def fenceChars : List Char := ['\n', '|', '`', '(', '=', '*', '#']

/-- A pattern in angle brackets that holds no character of a fence. -/
structure IsTag (p : Text) : Prop where
  first : p.head? = some (CodePoint.ofChar '<')
  last : p.getLast? = some (CodePoint.ofChar '>')
  foreign : ∀ c ∈ fenceChars, CodePoint.ofChar c ∉ p

namespace IsTag

variable (h : IsTag p)
include h

theorem ne_nil : p ≠ [] := by
  rintro rfl
  cases h.first

theorem isInert (cs : List Char) (hcs : cs.all (fun c => c != '<' && c != '>') = true) :
    IsInert p (Text.ofString (String.ofList cs)) := by
  intro c hc
  rw [Text.ofString, String.toList_ofList] at hc
  obtain ⟨d, hd, rfl⟩ := List.mem_map.1 hc
  have hbracket := List.all_eq_true.1 hcs d hd
  simp only [Bool.and_eq_true, bne_iff_ne, ne_eq] at hbracket
  rw [h.first, h.last]
  constructor
  · intro heq
    exact hbracket.1 (CodePoint.ofChar_injective (Option.some.inj heq)).symm
  · intro heq
    exact hbracket.2 (CodePoint.ofChar_injective (Option.some.inj heq)).symm

/-- A text without angle brackets that holds a code point of a fence is one. -/
theorem isFence (cs : List Char) (hcs : cs.all (fun c => c != '<' && c != '>') = true)
    (hforeign : cs.any (fenceChars.contains ·) = true) :
    IsFence p (Text.ofString (String.ofList cs)) := by
  obtain ⟨c, hc, hfence⟩ := List.any_eq_true.1 hforeign
  refine ⟨h.isInert cs hcs, _, ?_, h.foreign c (List.contains_iff_mem.1 hfence)⟩
  rw [Text.ofString, String.toList_ofList]
  exact List.mem_map_of_mem hc

theorem encloses (cs : List Char) (hcs : cs.all (fun c => c != '<' && c != '>') = true)
    (hforeign : cs.any (fenceChars.contains ·) = true) :
    Encloses p (Text.ofString (String.ofList cs)) [] :=
  (h.isFence cs hcs hforeign).encloses h.ne_nil

/-- A piece of code holds a tag exactly if what it stands for does. -/
theorem infix_code_iff (s : Text) : p <:+: Cell.code s ↔ p <:+: Cell.plain s := by
  have hp := h.ne_nil
  simp only [Cell.code]
  split_ifs with hempty
  · rw [List.isEmpty_iff] at hempty
    have hhyphen := (h.isInert ['-'] rfl).infix_append_iff hp []
    rw [List.append_nil] at hhyphen
    rw [hempty]
    exact hhyphen
  · have hmark := h.isInert ['`'] rfl
    rw [List.append_assoc, hmark.infix_append_iff hp, hmark.append_infix_iff hp]

theorem not_infix {t : Text} (ht : IsInert p t) : ¬ p <:+: t := by
  have hinert := ht.infix_append_iff h.ne_nil []
  rw [List.append_nil, List.infix_nil] at hinert
  exact fun hinfix => h.ne_nil (hinert.1 hinfix)

theorem isInert_keyword (k : Kind) : IsInert p (Text.ofString k.keyword) := by
  cases k
  · exact h.isInert ['A', 'R', 'G'] rfl
  · exact h.isInert ['E', 'N', 'V'] rfl
  · exact h.isInert ['L', 'A', 'B', 'E', 'L'] rfl
  · exact h.isInert ['E', 'X', 'P', 'O', 'S', 'E'] rfl

theorem not_infix_requiredMark (required noSymbols : Bool) :
    ¬ p <:+: Cell.requiredMark required noSymbols := by
  cases required <;> cases noSymbols
  · exact h.not_infix (h.isInert ['❌'] rfl)
  · exact h.not_infix (h.isInert ['N', 'o'] rfl)
  · exact h.not_infix (h.isInert ['✅'] rfl)
  · exact h.not_infix (h.isInert ['Y', 'e', 's'] rfl)

/-- A line of a table shows its cells. -/
theorem encloses_line (cells : List Text) : Encloses p (Parts.line cells) cells := by
  have hcells : ∀ {t shown}, Encloses p t shown →
      Encloses p (t ++ (Text.join " | " cells ++ Text.ofString " |")) (shown ++ cells) := by
    have hbar := h.encloses [' ', '|'] rfl rfl
    have hbars := h.encloses [' ', '|', ' '] rfl rfl
    induction cells with
    | nil =>
      intro t shown ht
      rw [List.append_nil]
      exact ht.append_inert h.ne_nil (h.isInert [' ', '|'] rfl)
    | cons s cells ih =>
      intro t shown ht
      cases cells with
      | nil => exact ht.around s hbar
      | cons s' cells =>
        have hrest := ih (ht.around s hbars)
        simpa [Text.join] using hrest
  rw [Parts.line, List.append_assoc]
  exact hcells (h.encloses ['\n', '|', ' '] rfl rfl)

end IsTag

namespace Markdown

open Parts

def shown (template : String) (i : Item) : List Text :=
  if template = "compact" then [Cell.plain i.name, Cell.plain i.value, Text.ofString i.description]
  else if template = "detailed" ∧ i.kind = .expose then
    [Cell.plain i.name, Cell.plain i.description]
  else [Cell.plain i.name, Cell.plain i.description, Cell.plain i.value]

variable {items : List Item} {cells : Item → List Text} {template : String} (h : IsTag p)

/-- The tables of the detailed template are for different kinds of items. -/
theorem mem_ofKind {d : Documentation} {i : Item} (k : Kind) :
    i ∈ d.ofKind k.keyword ↔ i ∈ d.items ∧ i.kind = k := by
  have hkeyword : ∀ k' : Kind,
      (k'.keyword == LetterCase.upperString k.keyword) = true ↔ k' = k := by
    cases k <;> intro k' <;> cases k' <;> decide
  rw [Documentation.ofKind, List.mem_filter, hkeyword]

/-- The rows of a kind show a tag exactly if an item of that kind does. -/
theorem exists_ofKind_iff {d : Documentation} (k : Kind) (cells : Item → List Text) :
    (∃ s ∈ (d.ofKind k.keyword).flatMap cells, p <:+: s) ↔
      ∃ i ∈ d.items, i.kind = k ∧ ∃ s ∈ cells i, p <:+: s := by
  simp only [List.mem_flatMap, mem_ofKind]
  constructor
  · rintro ⟨s, ⟨i, ⟨hi, hk⟩, hs⟩, hps⟩
    exact ⟨i, hi, hk, s, hs, hps⟩
  · rintro ⟨i, hi, hk, s, hs, hps⟩
    exact ⟨s, ⟨i, ⟨hi, hk⟩, hs⟩, hps⟩

/-- Without an image nothing is printed about one. -/
theorem analysisText_none (d : Documentation) (options : ReportOptions) (wasted : String) :
    ImageReport.analysisText ⟨d, none, options⟩ wasted = [] := rfl

/-- Rows show a tag exactly if an item does, when the cells of each item show what the item does. -/
theorem exists_flatMap_iff
    (hcells : ∀ i, (∃ s ∈ cells i, p <:+: s) ↔ ∃ s ∈ shown template i, p <:+: s) :
    (∃ s ∈ items.flatMap cells, p <:+: s) ↔ ∃ i ∈ items, ∃ s ∈ shown template i, p <:+: s := by
  simp only [← hcells, List.mem_flatMap]
  constructor
  · rintro ⟨s, ⟨i, hi, hs⟩, hps⟩
    exact ⟨i, hi, s, hs, hps⟩
  · rintro ⟨i, hi, s, hs, hps⟩
    exact ⟨s, ⟨i, hi, hs⟩, hps⟩

include h

/-- A table shows the cells of its rows. -/
theorem encloses_table {head : Text} (hhead : Encloses p head []) (items : List Item)
    (cells : Item → List Text) :
    Encloses p (head ++ items.flatMap fun i => line (cells i)) (items.flatMap cells) :=
  hhead.flatMap h.ne_nil fun _ _ => h.encloses_line _

theorem infix_defaultReport_iff (d : Documentation) (options : ReportOptions) (wasted : String) :
    p <:+: defaultReport ⟨d, none, options⟩ wasted ↔
      ∃ i ∈ d.items, ∃ s ∈ shown "default" i, p <:+: s := by
  have hp := h.ne_nil
  have hstart : Encloses p (Text.ofString "## Configuration\n") [] := h.encloses _ rfl rfl
  have hnone : Encloses p (Text.ofString "\n*No documented configuration found.*") [] :=
    h.encloses _ rfl rfl
  have hhead : Encloses p (Text.ofString
      ("\n| Name | Type | Description | Default | Required |\n" ++
        "|------|------|-------------|---------|----------|")) [] := by
    rw [Text.ofString_append]
    exact Encloses.append hp (h.encloses _ rfl rfl) (h.encloses _ rfl rfl)
  have hend : Encloses p (Text.ofString "\n") [] := h.encloses _ rfl rfl
  have hcells : ∀ i, (∃ s ∈ defaultCells options.noSymbols i, p <:+: s) ↔
      ∃ s ∈ shown "default" i, p <:+: s := by
    intro i
    simp [defaultCells, shown, h.infix_code_iff, h.not_infix (h.isInert_keyword _),
      h.not_infix_requiredMark]
  have hbody : Encloses p
      (if d.items.isEmpty then Text.ofString "\n*No documented configuration found.*"
        else Text.ofString ("\n| Name | Type | Description | Default | Required |\n" ++
            "|------|------|-------------|---------|----------|") ++
          d.items.flatMap fun i => line (defaultCells options.noSymbols i))
      (d.items.flatMap (defaultCells options.noSymbols)) := by
    cases d.items with
    | nil => exact hnone
    | cons i items => exact encloses_table h hhead (i :: items) _
  have hall := ((hstart.append hp hbody).append hp hend).infix_iff hp
  simp only [List.nil_append, List.append_nil] at hall
  rw [defaultReport, analysisText_none, List.append_nil, hall, exists_flatMap_iff hcells]

theorem infix_minimalReport_iff (d : Documentation) (options : ReportOptions) :
    p <:+: minimalReport ⟨d, none, options⟩ ↔
      ∃ i ∈ d.items, ∃ s ∈ shown "minimal" i, p <:+: s := by
  have hp := h.ne_nil
  have hhead : Encloses p
      (Text.ofString "| Name | Description | Default |\n|------|-------------|---------|") [] :=
    h.encloses _ rfl rfl
  have hend : Encloses p (Text.ofString "\n") [] := h.encloses _ rfl rfl
  have hcells : ∀ i, (∃ s ∈ minimalCells i, p <:+: s) ↔ ∃ s ∈ shown "minimal" i, p <:+: s := by
    intro i
    simp [minimalCells, shown, h.infix_code_iff]
  have hall := ((encloses_table h hhead d.items minimalCells).append hp hend).infix_iff hp
  rw [List.append_nil] at hall
  have hline : (ImageReport.analyzed ⟨d, none, options⟩).elim [] imageLine = [] := rfl
  rw [minimalReport, hline, List.append_nil, hall, exists_flatMap_iff hcells]

/-- A bullet shows its texts one after another. -/
theorem encloses_bullet (i : Item) : Encloses p (bullet i) (shown "compact" i) := by
  have hp := h.ne_nil
  have hmark : IsFence p "`" := h.isFence ['`'] rfl rfl
  have hhyphen : IsInert p "-" := h.isInert ['-'] rfl
  have hempty : ∀ {s : String}, (Value.ofString s).isTrue = false → Text.ofString s = [] := by
    intro s hs
    simpa [Value.ofString, Value.isTrue] using hs
  have hname : Encloses p (Text.ofString "- " ++ (Cell.code i.name ++ (Text.ofString " (" ++
      (Text.ofString i.kind.keyword ++ Text.ofString ")")))) [Cell.plain i.name] := by
    have hopen : Encloses p (Text.ofString " (") [] := h.encloses _ rfl rfl
    have hclose := (h.isInert_keyword i.kind).append (h.isInert [')'] rfl)
    have hcode := (hopen.append_inert hp hclose).code_append hp hmark hhyphen i.name
    exact hcode.inert_append hp (h.isInert ['-', ' '] rfl)
  have hvalue : ∀ {t}, Encloses p t [Cell.plain i.name] →
      Encloses p (t ++ if (Value.ofString i.value).isTrue
          then Text.ofString " = " ++ Cell.code i.value else [])
        [Cell.plain i.name, Cell.plain i.value] := by
    intro t ht
    split_ifs with hv
    · have hequals : Encloses p (Text.ofString " = ") [] := h.encloses _ rfl rfl
      exact ht.append hp (hequals.append_code hp hmark hhyphen i.value)
    · rw [List.append_nil, hempty (Bool.eq_false_iff.2 hv)]
      exact ht.congr (by simp [Cell.plain, hp])
  have hrequired : ∀ {t shown}, Encloses p t shown →
      Encloses p (t ++ if i.required then Text.ofString " **required**" else []) shown := by
    intro t shown ht
    split_ifs
    · have hword : Encloses p (Text.ofString " **required**") [] := h.encloses _ rfl rfl
      simpa using ht.append hp hword
    · simpa using ht
  have hdescription : ∀ {t shown}, Encloses p t shown →
      Encloses p (t ++ ((if (Value.ofString i.description).isTrue
          then Text.ofString ": " ++ i.description else []) ++ Text.ofString "\n"))
        (shown ++ [Text.ofString i.description]) := by
    intro t shown ht
    have hend : Encloses p (Text.ofString "\n") [] := h.encloses _ rfl rfl
    split_ifs with hd
    · have hcolon := ht.append_inert hp (h.isInert [':', ' '] rfl)
      simpa using hcolon.around i.description hend
    · rw [hempty (Bool.eq_false_iff.2 hd)]
      exact ht.around [] hend
  have hbullet := hdescription (hrequired (hvalue hname))
  simp only [List.append_assoc] at hbullet
  exact hbullet

theorem infix_compactReport_iff (d : Documentation) (options : ReportOptions) :
    p <:+: compactReport ⟨d, none, options⟩ ↔
      ∃ i ∈ d.items, ∃ s ∈ shown "compact" i, p <:+: s := by
  have hp := h.ne_nil
  have hend : IsInert p (Text.ofString "\n") := h.isInert ['\n'] rfl
  have hline : (ImageReport.analyzed ⟨d, none, options⟩).elim [] Analyzed.compactLine = [] := rfl
  rw [compactReport, hline, List.append_nil, hend.append_infix_iff hp,
    Encloses.infix_flatMap_iff hp fun i _ => encloses_bullet h i]

theorem encloses_itemTable (noSymbols : Bool) (items : List Item) (title : String)
    {t : Text} {texts : List Text} (ht : Encloses p t texts) (htitle : IsInert p title) :
    Encloses p (t ++ itemTableText noSymbols items title)
      (texts ++ items.flatMap (detailedCells noSymbols)) := by
  have hp := h.ne_nil
  have hstart : Encloses p (Text.ofString "\n\n### ") [] := h.encloses _ rfl rfl
  have hhead : Encloses p (Text.ofString ("\n\n| Name | Description | Default | Required |\n" ++
      "|------|-------------|---------|----------|")) [] := by
    rw [Text.ofString_append]
    exact Encloses.append hp (h.encloses _ rfl rfl) (h.encloses _ rfl rfl)
  rw [itemTableText]
  cases items with
  | nil => simpa using ht
  | cons i items =>
    have htable := encloses_table h hhead (i :: items) (detailedCells noSymbols)
    have htitled := hstart.append hp (htable.inert_append hp htitle)
    rw [List.nil_append] at htitled
    exact ht.append hp htitled

theorem encloses_portTable (ports : List Item) {t : Text} {texts : List Text}
    (ht : Encloses p t texts) :
    Encloses p (t ++ portTableText ports) (texts ++ ports.flatMap portCells) := by
  have hhead : Encloses p (Text.ofString
      "\n\n### Exposed Ports\n\n| Port | Description |\n|------|-------------|") [] :=
    h.encloses _ rfl rfl
  rw [portTableText]
  cases ports with
  | nil => simpa using ht
  | cons i ports => exact ht.append h.ne_nil (encloses_table h hhead (i :: ports) portCells)

/-- An item is shown in the table of its kind. -/
theorem exists_shown_detailed_iff (noSymbols : Bool) (i : Item) :
    (∃ s ∈ shown "detailed" i, p <:+: s) ↔
      (i.kind = .arg ∧ ∃ s ∈ detailedCells noSymbols i, p <:+: s) ∨
        (i.kind = .env ∧ ∃ s ∈ detailedCells noSymbols i, p <:+: s) ∨
        (i.kind = .label ∧ ∃ s ∈ detailedCells noSymbols i, p <:+: s) ∨
        i.kind = .expose ∧ ∃ s ∈ portCells i, p <:+: s := by
  cases hi : i.kind <;>
    simp [detailedCells, portCells, shown, hi, h.infix_code_iff, h.not_infix_requiredMark]

theorem infix_detailedReport_iff (d : Documentation) (options : ReportOptions) (wasted : String) :
    p <:+: detailedReport ⟨d, none, options⟩ wasted ↔
      ∃ i ∈ d.items, ∃ s ∈ shown "detailed" i, p <:+: s := by
  have hp := h.ne_nil
  have hstart : Encloses p (Text.ofString "# Docker Image Analysis") [] := h.encloses _ rfl rfl
  have hheading : Encloses p (Text.ofString "\n\n## Configuration") [] := h.encloses _ rfl rfl
  have hnone : ∀ {t}, Encloses p t [] → Encloses p (t ++ if d.items.isEmpty
      then Text.ofString "\n\n*No documented configuration found.*" else []) [] := by
    intro t ht
    split_ifs
    · have hnote : Encloses p (Text.ofString "\n\n*No documented configuration found.*") [] :=
        h.encloses _ rfl rfl
      exact ht.append hp hnote
    · simpa using ht
  have hend : Encloses p (Text.ofString "\n") [] := h.encloses _ rfl rfl
  have hargs := encloses_itemTable h options.noSymbols (d.ofKind Kind.arg.keyword) "Build Arguments"
    (hnone (hstart.append hp hheading)) (h.isInert _ rfl)
  have henvs := encloses_itemTable h options.noSymbols (d.ofKind Kind.env.keyword)
    "Environment Variables" hargs (h.isInert _ rfl)
  have hlabels := encloses_itemTable h options.noSymbols (d.ofKind Kind.label.keyword) "Labels"
    henvs (h.isInert _ rfl)
  have hports := encloses_portTable h (d.ofKind Kind.expose.keyword) hlabels
  have hall := (hports.append hp hend).infix_iff hp
  have hbadges : (ImageReport.badged ⟨d, none, options⟩).elim [] (·.badgesText) = [] := rfl
  have hscan : (ImageReport.scanned ⟨d, none, options⟩).elim [] Analyzed.scanText = [] := rfl
  rw [detailedReport, hbadges, hscan, analysisText_none]
  simp only [List.append_nil]
  refine hall.trans ?_
  rw [List.nil_append, List.append_nil]
  simp only [List.mem_append, or_and_right, exists_or, exists_ofKind_iff,
    exists_shown_detailed_iff h options.noSymbols, and_or_left, or_assoc]

omit h in
/-- A built-in Markdown template prints a report for every documentation, and a tag is in it exactly
if an item shows the tag. -/
theorem exists_image_template {name : String} {b : Builtin} (hb : Builtin.find? name = some b)
    (hformat : b.format = .markdown) :
    ∃ t, Template.ofSegments? (b.segments .image) = some t ∧ ∀ d options data, ∃ text,
      t.render false (Report.imageValues d none options data) = .ok text ∧
      ∀ p, IsTag p → (p <:+: text ↔ ∃ i ∈ d.items, ∃ s ∈ shown b.name i, p <:+: s) := by
  have hmem : b ∈ Builtin.all := List.mem_of_find?_eq_some hb
  simp only [Builtin.all, List.mem_cons, List.not_mem_nil, or_false] at hmem
  -- a report without an image needs no size, so no template fails
  let r (d : Documentation) (options : ReportOptions) : ImageReport := ⟨d, none, options⟩
  rcases hmem with rfl | rfl | rfl | rfl | rfl | rfl
  · obtain ⟨t, ht, hrender⟩ := prints_defaultImage.exists_template
    exact ⟨t, ht, fun d options data => ⟨_, hrender (r d options) _ (sees_imageValues _ data),
      fun p h => infix_defaultReport_iff h d options ""⟩⟩
  · obtain ⟨t, ht, hrender⟩ := prints_minimalImage.exists_template
    exact ⟨t, ht, fun d options data => ⟨_, hrender (r d options) _ (sees_imageValues _ data),
      fun p h => infix_minimalReport_iff h d options⟩⟩
  · obtain ⟨t, ht, hrender⟩ := exists_detailedTemplate
    exact ⟨t, ht, fun d options data => ⟨_, hrender (r d options) data,
      fun p h => infix_detailedReport_iff h d options ""⟩⟩
  · obtain ⟨t, ht, hrender⟩ := prints_compactImage.exists_template
    exact ⟨t, ht, fun d options data => ⟨_, hrender (r d options) _ (sees_imageValues _ data),
      fun p h => infix_compactReport_iff h d options⟩⟩
  · cases hformat
  · cases hformat

end Markdown
end ContainerDocs
