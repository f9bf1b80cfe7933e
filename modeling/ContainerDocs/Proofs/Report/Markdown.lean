import ContainerDocs.Proofs.Report.Evaluate

/-!
# Items in Markdown

What the built-in Markdown templates print for one item and for a table of items.

## Main definitions

* `Markdown.defaultCells`, `Markdown.minimalCells`, `Markdown.detailedCells`, `Markdown.portCells` —
  the cells of an item in the tables of the templates.
* `Markdown.bullet` — the line of an item in the compact template.
* `Markdown.itemTableText`, `Markdown.portTableText` — the tables of the detailed template.

## Main statements

* `Markdown.prints_defaultCells`, `Markdown.prints_minimalCells`, `Markdown.prints_detailedCells`,
  `Markdown.prints_portCells` — the expressions of a row print these cells.
* `Markdown.printsAs_itemTable` — the named part of the detailed template prints a table.
-/

namespace ContainerDocs
namespace Markdown

open Parts Segment Scope

/-! ## What stands between tags -/

theorem cut_lineBreak : cut false true "\n" = "" := rfl

theorem cut_lineBreaks : cut false true ("\n" ++ "\n") = "" := rfl

theorem cut_defaultHead :
    cut false true ("\n| Name | Type | Description | Default | Required |\n" ++
        "|------|------|-------------|---------|----------|\n") =
      "\n| Name | Type | Description | Default | Required |\n" ++
        "|------|------|-------------|---------|----------|" := by
  refine (congrArg _ String.ofList_append.symm).trans
    ((cut_ofList ..).trans (Eq.trans ?_ String.ofList_append))
  rfl

theorem cut_defaultNothing : cut false true "\n*No documented configuration found.*\n" =
    "\n*No documented configuration found.*" :=
  (cut_ofList ..).trans rfl

theorem cut_minimalHead :
    cut false true "| Name | Description | Default |\n|------|-------------|---------|\n" =
      "| Name | Description | Default |\n|------|-------------|---------|" :=
  (cut_ofList ..).trans rfl

theorem cut_bullet : cut true false "\n- " = "- " := rfl

theorem cut_detailedStart :
    cut true true ("\n" ++ "# Docker Image Analysis\n") = "# Docker Image Analysis" :=
  (congrArg _ String.ofList_append.symm).trans ((cut_ofList ..).trans rfl)

theorem cut_detailedHead :
    cut false true ("\n\n| Name | Description | Default | Required |\n" ++
        "|------|-------------|---------|----------|\n") =
      "\n\n| Name | Description | Default | Required |\n" ++
        "|------|-------------|---------|----------|" := by
  refine (congrArg _ String.ofList_append.symm).trans
    ((cut_ofList ..).trans (Eq.trans ?_ String.ofList_append))
  rfl

theorem cut_configuration : cut false true "\n\n## Configuration\n" = "\n\n## Configuration" :=
  (cut_ofList ..).trans rfl

theorem cut_detailedNothing : cut false true "\n\n*No documented configuration found.*\n" =
    "\n\n*No documented configuration found.*" :=
  (cut_ofList ..).trans rfl

theorem cut_portHead :
    cut false true
        "\n\n### Exposed Ports\n\n| Port | Description |\n|------|-------------|\n" =
      "\n\n### Exposed Ports\n\n| Port | Description |\n|------|-------------|" :=
  (cut_ofList ..).trans rfl

/-! ## Printed texts -/

section Text

variable (noSymbols : Bool) (items : List Item) (i : Item)

def defaultCells : List Text :=
  [Cell.code i.name, i.kind.keyword, Cell.plain i.description, Cell.code i.value,
    Cell.requiredMark i.required noSymbols]

def minimalCells : List Text :=
  [Cell.code i.name, Cell.plain i.description, Cell.code i.value]

def bullet : Text :=
  Text.ofString "- " ++ (Cell.code i.name ++ (Text.ofString " (" ++ (Text.ofString i.kind.keyword ++
    (Text.ofString ")" ++
      ((if (Value.ofString i.value).isTrue then Text.ofString " = " ++ Cell.code i.value else []) ++
        ((if i.required then Text.ofString " **required**" else []) ++
          ((if (Value.ofString i.description).isTrue then Text.ofString ": " ++ i.description
            else []) ++ Text.ofString "\n")))))))

def detailedCells : List Text :=
  [Cell.code i.name, Cell.plain i.description, Cell.code i.value,
    Cell.requiredMark i.required noSymbols]

def itemTableText (title : String) : Text :=
  if items.isEmpty then []
  else Text.ofString "\n\n### " ++ (Text.ofString title ++
    (Text.ofString ("\n\n| Name | Description | Default | Required |\n" ++
        "|------|-------------|---------|----------|") ++
      items.flatMap fun i => line (detailedCells noSymbols i)))

/-- The cells of a port in the detailed template. -/
def portCells : List Text := [Cell.code i.name, Cell.plain i.description]

def portTableText : Text :=
  if items.isEmpty then []
  else Text.ofString
      "\n\n### Exposed Ports\n\n| Port | Description |\n|------|-------------|" ++
    items.flatMap fun i => line (portCells i)

end Text

/-! ## Printing -/

section Print

variable {s : Scope} {i : Item} {options : ReportOptions}

theorem prints_defaultCells (hi : s.find "item" = .item i)
    (ho : s.find "options" = .options options) :
    List.Forall₂ (PrintsAs false s)
      [itemName, field "item" "type", itemDescription, itemValue, requiredMark]
      (defaultCells options.noSymbols i) :=
  .cons (printsAs_itemName hi) (.cons (printsAs_itemType hi) (.cons (printsAs_itemDescription hi)
    (.cons (printsAs_itemValue hi) (.cons (printsAs_requiredMark hi ho) .nil))))

theorem prints_minimalCells (hi : s.find "item" = .item i) :
    List.Forall₂ (PrintsAs false s) [itemName, itemDescription, itemValue] (minimalCells i) :=
  .cons (printsAs_itemName hi) (.cons (printsAs_itemDescription hi)
    (.cons (printsAs_itemValue hi) .nil))

theorem prints_detailedCells (hi : s.find "item" = .item i)
    (ho : s.find "options" = .options options) :
    List.Forall₂ (PrintsAs false s) [itemName, itemDescription, itemValue, requiredMark]
      (detailedCells options.noSymbols i) :=
  .cons (printsAs_itemName hi) (.cons (printsAs_itemDescription hi)
    (.cons (printsAs_itemValue hi) (.cons (printsAs_requiredMark hi ho) .nil)))

theorem prints_portCells (hi : s.find "item" = .item i) :
    List.Forall₂ (PrintsAs false s) [itemName, itemDescription] (portCells i) :=
  .cons (printsAs_itemName hi) (.cons (printsAs_itemDescription hi) .nil)

def itemTableNodes : List Node :=
  [.cond (.ident "rows")
    (Node.ofText "\n\n### " ++ Node.output (.ident "title") ::
      (Node.ofText ("\n\n| Name | Description | Default | Required |\n" ++
          "|------|-------------|---------|----------|") ++
        [Node.loop (.one "item") (.ident "rows") none
          (rowNodes [itemName, itemDescription, itemValue, requiredMark]) []])) []]

theorem printsAs_itemTable {s₀ : Scope} {source : String} {items : List Item} (title : String)
    (hpart : Value.lookup s.parts "item_table" =
      some (part false s₀ ["title", "rows"] itemTableNodes))
    (hsource : s.find source = .list (items.map .item))
    (hoptions : Value.lookup s.globals "options" = some (.options options)) :
    PrintsAs false s (.call (.ident "item_table") [.quoted title, .ident source] [])
      (itemTableText options.noSymbols items title) := by
  let inner : Scope := ⟨[("title", .ofString title), ("rows", .list (items.map .item))], s.globals,
    s₀.parts, true⟩
  have hvs : evalAll false s [.quoted title, .ident source] =
      .ok [.ofString title, .list (items.map .item)] := by
    rw [← hsource]
    rfl
  have hrows : eval false inner (.ident "rows") = .ok (.list (items.map .item)) := rfl
  have htitle : PrintsAs false inner (.ident "title") title := ⟨_, rfl, rfl⟩
  have hinner : inner.find "options" = .options options := by
    have hlocals : Value.lookup inner.locals "options" = none := rfl
    rw [find, hlocals, hoptions]
    rfl
  have htable := runAll_last_itemRows hrows fun i s hi ho =>
    prints_detailedCells hi (ho.trans hinner)
  have hprint : runAll false inner itemTableNodes =
      .ok (inner, itemTableText options.noSymbols items title ++ []) :=
    runAll_cond_list hrows (runAll_append (runAll_ofText ..)
      (runAll_output htitle (runAll_append (runAll_ofText ..) htable))) (runAll_nil ..)
      (runAll_nil ..)
  rw [List.append_nil] at hprint
  exact printsAs_part hpart hvs rfl hprint

end Print
end Markdown
end ContainerDocs
