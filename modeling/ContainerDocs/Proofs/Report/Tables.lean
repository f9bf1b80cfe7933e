import ContainerDocs.Proofs.Report.Evaluate
import ContainerDocs.Proofs.Text.Blank
import ContainerDocs.Proofs.Text.CodePoint

/-!
# Tables in Markdown

What a text shows to a reader who takes it apart into lines, and a line into cells at the bars that
no backslash stands before. A cell whose text is escaped stays one cell, a row one line and a table
as many lines as it has rows, whatever stands around it.

## Main definitions

* `Markdown.lines`, `Markdown.cutAtBars` — the lines of a text and the pieces of a line.
* `Markdown.Table` — a table as data.
* `Markdown.ShowsTables` — lines that show tables one after another.
* `Markdown.Carries`, `Markdown.Block` — a piece of text that adds tables to what comes after it.

## Main statements

* `Markdown.isRow_row` — the line of a row is cut into its cells.
* `Markdown.carries_table` — the text of a table shows the table.
-/

namespace ContainerDocs
namespace Markdown

open Parts

/-! ## Lines and cells -/

def isLineEnd (c : CodePoint) : Bool := c = '\n' || c = '\r'

def lines (t : Text) : List Text := Blank.splitOn isLineEnd t

/-- The pieces of a line, cut at each bar that no backslash stands directly before. `escaped` tells
whether a backslash stands directly before the line. -/
def cutAtBars (escaped : Bool) : Text → List Text
  | [] => [[]]
  | c :: rest =>
    if c = '|' ∧ escaped = false then [] :: cutAtBars false rest
    else (cutAtBars (c == '\\') rest).modifyHead (c :: ·)

/-! ### Lines -/

theorem splitOn_append {α : Type} {p : α → Bool} {c : α} (hc : p c = true) (t r : List α) :
    Blank.splitOn p (t ++ c :: r) = Blank.splitOn p t ++ Blank.splitOn p r := by
  induction t with
  | nil => exact Blank.splitOn_cons_of_pos hc r
  | cons d t ih =>
    obtain ⟨piece, pieces, hpieces⟩ := Blank.exists_splitOn p t
    cases hd : p d with
    | true =>
      rw [List.cons_append, Blank.splitOn_cons_of_pos hd, Blank.splitOn_cons_of_pos hd, ih,
        List.cons_append]
    | false =>
      rw [hpieces, List.cons_append] at ih
      rw [List.cons_append, Blank.splitOn_cons_of_neg hd ih, Blank.splitOn_cons_of_neg hd hpieces,
        List.cons_append]

theorem lines_append (t r : Text) :
    lines (t ++ CodePoint.ofChar '\n' :: r) = lines t ++ lines r :=
  splitOn_append rfl t r

theorem lines_cons (r : Text) : lines (CodePoint.ofChar '\n' :: r) = [] :: lines r :=
  lines_append [] r

/-- A text without line ends is one line. -/
theorem lines_eq_singleton {t : Text} (h : ∀ c ∈ t, isLineEnd c = false) : lines t = [t] :=
  Blank.splitOn_eq_singleton h

/-! ### Cells -/

/-- A text that stays inside a cell: it ends no line, and none of its bars is free, whatever stands
before it and after it. -/
structure IsCell (t : Text) : Prop where
  unbroken : ∀ c ∈ t, isLineEnd c = false
  sealed : ∀ escaped rest, ∃ escaped', cutAtBars escaped (t ++ rest) =
    (cutAtBars escaped' rest).modifyHead (t ++ ·)

theorem cutAtBars_eq (escaped : Bool) (c : CodePoint) (rest : Text) :
    cutAtBars escaped (c :: rest) =
      if c = '|' ∧ escaped = false then [] :: cutAtBars false rest
      else (cutAtBars (c == '\\') rest).modifyHead (c :: ·) := rfl

theorem cutAtBars_cons {c : CodePoint} (hc : c ≠ '|') (escaped : Bool) (rest : Text) :
    cutAtBars escaped (c :: rest) = (cutAtBars (c == '\\') rest).modifyHead (c :: ·) := by
  rw [cutAtBars_eq, if_neg (by simp [hc])]

theorem isCell_nil : IsCell [] :=
  ⟨by simp, fun escaped rest => ⟨escaped, (congrFun List.modifyHead_id _).symm⟩⟩

theorem IsCell.append {t u : Text} (h : IsCell t) (h' : IsCell u) : IsCell (t ++ u) := by
  refine ⟨fun c hc => ?_, fun escaped rest => ?_⟩
  · obtain hc | hc := List.mem_append.1 hc
    · exact h.unbroken c hc
    · exact h'.unbroken c hc
  · obtain ⟨escaped₁, h₁⟩ := h.sealed escaped (u ++ rest)
    obtain ⟨escaped₂, h₂⟩ := h'.sealed escaped₁ rest
    refine ⟨escaped₂, ?_⟩
    rw [List.append_assoc, h₁, h₂]
    simp [Function.comp_def]

/-- A text without bars and line ends stays inside a cell. -/
theorem isCell_of_forall {t : Text} (h : ∀ c ∈ t, c ≠ '|' ∧ isLineEnd c = false) : IsCell t := by
  induction t with
  | nil => exact isCell_nil
  | cons c t ih =>
    obtain ⟨hc, ht⟩ := List.forall_mem_cons.1 h
    have hone : IsCell [c] := by
      refine ⟨by simpa using hc.2, fun escaped rest => ⟨c == '\\', ?_⟩⟩
      exact cutAtBars_cons hc.1 escaped rest
    exact hone.append (ih ht)

theorem isCell_ofString {cs : List Char} (h : cs.all (fun c => c ∉ ['|', '\n', '\r']) = true) :
    IsCell (Text.ofString (String.ofList cs)) := by
  refine isCell_of_forall fun c hc => ?_
  rw [Text.ofString, String.toList_ofList] at hc
  obtain ⟨d, hd, rfl⟩ := List.mem_map.1 hc
  have hplain := List.all_eq_true.1 h d hd
  simp only [List.mem_cons, List.not_mem_nil, or_false, not_or, decide_eq_true_eq] at hplain
  simp [isLineEnd, CodePoint.ofChar_injective.eq_iff, hplain]

theorem isCell_escape (c : CodePoint) : IsCell (Cell.escape c) := by
  unfold Cell.escape
  split_ifs with hbar hreturn hfeed
  · refine ⟨by decide, fun escaped rest => ⟨false, ?_⟩⟩
    change cutAtBars escaped (CodePoint.ofChar '\\' :: CodePoint.ofChar '|' :: rest) = _
    rw [cutAtBars_cons (by decide), cutAtBars_eq, if_neg (by decide)]
    exact (List.modifyHead_modifyHead ..).trans rfl
  · exact isCell_nil
  · exact isCell_ofString rfl
  · exact isCell_of_forall (by simpa [isLineEnd] using ⟨hbar, hfeed, hreturn⟩)

/-- The escaped form of a text stays inside a cell. -/
theorem isCell_plain (t : Text) : IsCell (Cell.plain t) := by
  induction t with
  | nil => exact isCell_nil
  | cons c t ih =>
    rw [Cell.plain, List.flatMap_cons]
    exact (isCell_escape c).append ih

theorem isCell_code (t : Text) : IsCell (Cell.code t) := by
  rw [Cell.code]
  split_ifs
  · exact isCell_ofString rfl
  · have hmark : IsCell (Text.ofString "`") := isCell_ofString rfl
    exact (hmark.append (isCell_plain t)).append hmark

theorem isCell_keyword (k : Kind) : IsCell k.keyword := by
  cases k <;> exact isCell_ofString rfl

theorem isCell_requiredMark (required noSymbols : Bool) :
    IsCell (Cell.requiredMark required noSymbols) := by
  cases required <;> cases noSymbols <;> exact isCell_ofString rfl

/-! ## Rows -/

/-- A line that is cut into cells, with a blank on both sides of each. -/
def IsRow (cells : List Text) (line : Text) : Prop :=
  cutAtBars false line =
    [] :: (cells.map (fun cell => Text.ofString " " ++ cell ++ Text.ofString " ") ++ [[]])

def row (cells : List Text) : Text :=
  Text.ofString "| " ++ Text.join (Text.ofString " | ") cells ++ Text.ofString " |"

theorem line_eq (cells : List Text) : line cells = CodePoint.ofChar '\n' :: row cells := rfl

theorem row_eq (cells : List Text) : row cells = CodePoint.ofChar '|' :: CodePoint.ofChar ' ' ::
    (Text.join (Text.ofString " | ") cells ++ [CodePoint.ofChar ' ', CodePoint.ofChar '|']) := rfl

/-- One cell between blanks and the bar behind it. -/
theorem cutAtBars_cell {cell : Text} (h : IsCell cell) (escaped : Bool) (rest : Text) :
    cutAtBars escaped (CodePoint.ofChar ' ' ::
        (cell ++ CodePoint.ofChar ' ' :: CodePoint.ofChar '|' :: rest)) =
      (Text.ofString " " ++ cell ++ Text.ofString " ") :: cutAtBars false rest := by
  have hblank : ∀ escaped t, cutAtBars escaped (CodePoint.ofChar ' ' :: t) =
      (cutAtBars false t).modifyHead (CodePoint.ofChar ' ' :: ·) :=
    fun escaped t => cutAtBars_cons (by decide) escaped t
  have hbar : cutAtBars false (CodePoint.ofChar '|' :: rest) = [] :: cutAtBars false rest := by
    rw [cutAtBars_eq, if_pos (by decide)]
  obtain ⟨escaped', hcut⟩ := h.sealed false (CodePoint.ofChar ' ' :: CodePoint.ofChar '|' :: rest)
  rw [hblank, hcut, hblank, hbar]
  simp [Text.ofString, Text.ofChars]

/-- The line of a row is cut into its cells. -/
theorem isRow_row {cells : List Text} (hne : cells ≠ []) (h : ∀ cell ∈ cells, IsCell cell) :
    IsRow cells (row cells) := by
  have hcells : ∀ escaped, cutAtBars escaped (CodePoint.ofChar ' ' ::
      (Text.join (Text.ofString " | ") cells ++ [CodePoint.ofChar ' ', CodePoint.ofChar '|'])) =
        cells.map (fun cell => Text.ofString " " ++ cell ++ Text.ofString " ") ++ [[]] := by
    induction cells with
    | nil => exact absurd rfl hne
    | cons cell cells ih =>
      obtain ⟨hcell, hcells⟩ := List.forall_mem_cons.1 h
      intro escaped
      cases cells with
      | nil => exact cutAtBars_cell hcell escaped []
      | cons cell' cells =>
        rw [List.map_cons, List.cons_append, ← ih (List.cons_ne_nil _ _) hcells false,
          ← cutAtBars_cell hcell escaped, Text.join, List.append_assoc, List.append_assoc]
        · rfl
        · simp
  rw [IsRow, row_eq, cutAtBars_eq, if_pos (by decide), hcells]

/-- The line of a row is one line. -/
theorem unbroken_row {cells : List Text} (h : ∀ cell ∈ cells, IsCell cell) :
    ∀ c ∈ row cells, isLineEnd c = false := by
  have happend : ∀ t u : Text, (∀ c ∈ t, isLineEnd c = false) → (∀ c ∈ u, isLineEnd c = false) →
      ∀ c ∈ t ++ u, isLineEnd c = false := by
    intro t u ht hu c hc
    exact (List.mem_append.1 hc).elim (ht c) (hu c)
  have hjoin : ∀ c ∈ Text.join (Text.ofString " | ") cells, isLineEnd c = false := by
    induction cells with
    | nil => simp [Text.join]
    | cons cell cells ih =>
      obtain ⟨hcell, hcells⟩ := List.forall_mem_cons.1 h
      cases cells with
      | nil => exact hcell.unbroken
      | cons cell' cells =>
        rw [Text.join]
        · exact happend _ _ (happend _ _ hcell.unbroken (by decide)) (ih hcells)
        · simp
  exact happend _ _ (happend _ _ (by decide) hjoin) (by decide)

/-! ## Tables -/

/-- A table: the names of its columns and the cells of its rows. -/
structure Table where
  columns : List String
  rows : List (List Text)
  rectangular : ∀ cells ∈ rows, cells.length = columns.length

namespace Table

def header (t : Table) : Text := row (t.columns.map Text.ofString)

/-- The line below the header, with dashes as wide as the cells above. -/
def rule (t : Table) : Text :=
  Text.ofString "|" ++ t.columns.flatMap fun name =>
    List.replicate (name.length + 2) (CodePoint.ofChar '-') ++ Text.ofString "|"

def head (t : Table) : Text := t.header ++ CodePoint.ofChar '\n' :: t.rule

def text (t : Table) : Text := t.head ++ t.rows.flatMap line

/-- A table with columns whose names and cells stay inside their places. -/
structure IsSound (t : Table) : Prop where
  columns_ne_nil : t.columns ≠ []
  names : ∀ name ∈ t.columns, IsCell (Text.ofString name)
  cells : ∀ cells ∈ t.rows, ∀ cell ∈ cells, IsCell cell

theorem IsSound.header_unbroken {t : Table} (h : t.IsSound) : ∀ c ∈ t.header, isLineEnd c = false :=
  unbroken_row (List.forall_mem_map.2 h.names)

theorem rule_unbroken (t : Table) : ∀ c ∈ t.rule, isLineEnd c = false := by
  intro c hc
  rw [rule, List.mem_append, List.mem_flatMap] at hc
  have hbar : ∀ c ∈ Text.ofString "|", isLineEnd c = false := by decide
  obtain hc | ⟨name, -, hc⟩ := hc
  · exact hbar c hc
  · obtain hc | hc := List.mem_append.1 hc
    · rw [List.eq_of_mem_replicate hc]
      rfl
    · exact hbar c hc

theorem IsSound.isRow {t : Table} (h : t.IsSound) {cells : List Text} (hcells : cells ∈ t.rows) :
    IsRow cells (row cells) := by
  refine isRow_row ?_ (h.cells cells hcells)
  rw [← List.length_pos_iff, t.rectangular cells hcells]
  exact List.length_pos_iff.2 h.columns_ne_nil

end Table

/-- Lines that show tables one after another: of each, the header, the line below it, exactly one
line for every row in order, and a blank line behind them. -/
inductive ShowsTables : List Table → List Text → Prop
  | nil (ls : List Text) : ShowsTables [] ls
  | cons {table : Table} {tables : List Table} (before : List Text) {rows after : List Text}
      (hrows : List.Forall₂ IsRow table.rows rows) (h : ShowsTables tables after) :
      ShowsTables (table :: tables)
        (before ++ table.header :: table.rule :: (rows ++ [] :: after))

theorem ShowsTables.prepend {tables : List Table} {ls : List Text} (h : ShowsTables tables ls)
    (before : List Text) : ShowsTables tables (before ++ ls) := by
  cases h with
  | nil ls => exact .nil _
  | cons before' hrows h =>
    rw [← List.append_assoc]
    exact .cons (before ++ before') hrows h

theorem Table.header_ne_nil (t : Table) : t.header ≠ [] := by
  rw [header, row_eq]
  exact List.cons_ne_nil _ _

/-- A blank line is no line of a table. -/
theorem ShowsTables.of_blank {tables : List Table} {ls : List Text}
    (h : ShowsTables tables ([] :: ls)) : ShowsTables tables ls := by
  generalize hlines : [] :: ls = ls' at h
  cases h with
  | nil ls => exact .nil _
  | @cons table tables before rows after hrows h =>
    cases before with
    | nil =>
      exact absurd (List.cons.inj hlines).1.symm table.header_ne_nil
    | cons b before =>
      obtain ⟨-, rfl⟩ := List.cons.inj hlines
      exact .cons before hrows h

/-- The rows behind a line are one line each. -/
theorem lines_rows {rows : List (List Text)} (h : ∀ cells ∈ rows, ∀ cell ∈ cells, IsCell cell)
    {t : Text} (ht : ∀ c ∈ t, isLineEnd c = false) (r : Text) :
    lines (t ++ rows.flatMap line ++ CodePoint.ofChar '\n' :: r) =
      t :: (rows.map row ++ lines r) := by
  induction rows generalizing t with
  | nil => simp [lines_append, lines_eq_singleton ht]
  | cons cells rows ih =>
    obtain ⟨hcells, hrows⟩ := List.forall_mem_cons.1 h
    calc lines (t ++ (cells :: rows).flatMap line ++ CodePoint.ofChar '\n' :: r)
        = lines (t ++ CodePoint.ofChar '\n' ::
            (row cells ++ rows.flatMap line ++ CodePoint.ofChar '\n' :: r)) := by simp [line_eq]
      _ = lines t ++ lines (row cells ++ rows.flatMap line ++ CodePoint.ofChar '\n' :: r) :=
          lines_append ..
      _ = t :: ((cells :: rows).map row ++ lines r) := by
          rw [ih hrows (unbroken_row hcells), lines_eq_singleton ht]
          rfl

theorem lines_table {table : Table} (h : table.IsSound) (r : Text) :
    lines (table.text ++ CodePoint.ofChar '\n' :: r) =
      table.header :: table.rule :: (table.rows.map row ++ lines r) := by
  have htext : table.text ++ CodePoint.ofChar '\n' :: r = table.header ++ CodePoint.ofChar '\n' ::
      (table.rule ++ table.rows.flatMap line ++ CodePoint.ofChar '\n' :: r) := by
    simp [Table.text, Table.head]
  rw [htext, lines_append, lines_eq_singleton h.header_unbroken,
    lines_rows h.cells table.rule_unbroken]
  rfl

/-! ## Pieces of text -/

def StartsBlank (t : Text) : Prop := t = [] ∨ ∃ r, t = CodePoint.ofChar '\n' :: r

/-- A piece of text that shows tables before those of what comes after it on a new line, if there is
a blank line in between. -/
def Carries (tables : List Table) (t : Text) : Prop :=
  ∀ tables' r, StartsBlank r → ShowsTables tables' (lines r) →
    ShowsTables (tables ++ tables') (lines (t ++ CodePoint.ofChar '\n' :: r))

/-- A piece of text that carries tables and, unless it is empty, starts with a blank line. -/
structure Block (tables : List Table) (t : Text) : Prop where
  carries : Carries tables t
  starts : t = [] ∨ ∃ r, t = CodePoint.ofChar '\n' :: CodePoint.ofChar '\n' :: r

/-- A text without tables. -/
theorem carries_nil (t : Text) : Carries [] t := by
  intro tables r _ h
  rw [lines_append]
  exact h.prepend _

/-- A table below a text. -/
theorem carries_table {table : Table} (h : table.IsSound) (t : Text) :
    Carries [table] (t ++ CodePoint.ofChar '\n' :: table.text) := by
  intro tables r hr hshows
  have htext : t ++ CodePoint.ofChar '\n' :: table.text ++ CodePoint.ofChar '\n' :: r =
      t ++ CodePoint.ofChar '\n' :: (table.text ++ CodePoint.ofChar '\n' :: r) := by simp
  rw [htext, lines_append, lines_table h]
  obtain ⟨after, hafter⟩ : ∃ after, lines r = [] :: after := by
    obtain rfl | ⟨r, rfl⟩ := hr
    · exact ⟨[], rfl⟩
    · exact ⟨lines r, lines_cons r⟩
  rw [hafter] at hshows ⊢
  refine .cons (lines t) ?_ hshows.of_blank
  rw [List.forall₂_map_right_iff, List.forall₂_same]
  exact fun cells hcells => h.isRow hcells

theorem Carries.append {tables tables' : List Table} {t u : Text} (h : Carries tables t)
    (h' : Block tables' u) : Carries (tables ++ tables') (t ++ u) := by
  intro others r hr hshows
  have hrest := h'.carries others r hr hshows
  rw [List.append_assoc, List.append_assoc]
  obtain rfl | ⟨u, rfl⟩ := h'.starts
  · rw [List.nil_append, lines_cons] at hrest
    exact h _ r hr hrest.of_blank
  · rw [List.cons_append, lines_cons] at hrest
    exact h _ _ (.inr ⟨_, rfl⟩) hrest.of_blank

/-- A text without tables behind others. -/
theorem Carries.append_text {tables : List Table} {t u : Text} (h : Carries tables t)
    (h' : Block [] u) : Carries tables (t ++ u) := by
  have hcarries := h.append h'
  rwa [List.append_nil] at hcarries

theorem block_nil : Block [] [] := ⟨carries_nil [], .inl rfl⟩

theorem Block.append {tables tables' : List Table} {t u : Text} (h : Block tables t)
    (h' : Block tables' u) : Block (tables ++ tables') (t ++ u) := by
  refine ⟨h.carries.append h', ?_⟩
  obtain rfl | ⟨r, rfl⟩ := h.starts
  · simpa using h'.starts
  · exact .inr ⟨r ++ u, rfl⟩

/-- A text that ends with a line end shows the tables that it carries before it. -/
theorem Carries.showsTables {tables : List Table} {t : Text} (h : Carries tables t) :
    ShowsTables tables (lines (t ++ Text.ofString "\n")) := by
  have hshows := h [] [] (.inl rfl) (.nil _)
  rwa [List.append_nil] at hshows

end Markdown
end ContainerDocs
