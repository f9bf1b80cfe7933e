import ContainerDocs.Proofs.Json.Number
import ContainerDocs.Proofs.Report.Analysis
import ContainerDocs.Proofs.Report.Tables
import Mathlib.Algebra.Order.BigOperators.Group.List

/-!
# How many cells a line has

The line of a row has as many cells as the row exactly if each of them stays inside its place, which
is seen from its free bars and its line ends. The printed forms of numbers and sizes stay inside
their places.

## Main definitions

* `Markdown.bars` — how many bars of a text are free.
* `Markdown.IsTableLine` — a line of a table with a number of cells.

## Main statements

* `Markdown.isCell_iff` — what stays inside a cell.
* `Markdown.isTableLine_row_iff` — when the line of a row has the cells of the row.
-/

namespace ContainerDocs
namespace Markdown

/-! ## Free bars -/

/-- How many bars of a text no backslash stands directly before. `escaped` tells whether a backslash
stands directly before the text. -/
def bars (escaped : Bool) : Text → Nat
  | [] => 0
  | c :: rest =>
    if c = '|' ∧ escaped = false then bars false rest + 1 else bars (c == '\\') rest

/-- Whether a backslash stands directly before what follows a text. -/
def escapes (escaped : Bool) : Text → Bool
  | [] => escaped
  | c :: rest => escapes (c == '\\') rest

variable {escaped : Bool} {t u : Text}

theorem bars_cons (escaped : Bool) (c : CodePoint) (rest : Text) : bars escaped (c :: rest) =
    if c = '|' ∧ escaped = false then bars false rest + 1 else bars (c == '\\') rest := rfl

theorem escapes_cons (escaped : Bool) (c : CodePoint) (rest : Text) :
    escapes escaped (c :: rest) = escapes (c == '\\') rest := rfl

theorem length_cutAtBars (escaped : Bool) (t : Text) :
    (cutAtBars escaped t).length = bars escaped t + 1 := by
  induction t generalizing escaped with
  | nil => rfl
  | cons c t ih =>
    rw [cutAtBars_eq, bars_cons]
    split_ifs
    · rw [List.length_cons, ih]
    · rw [List.length_modifyHead, ih]

theorem bars_append (escaped : Bool) (t u : Text) :
    bars escaped (t ++ u) = bars escaped t + bars (escapes escaped t) u := by
  induction t generalizing escaped with
  | nil => exact (Nat.zero_add _).symm
  | cons c t ih =>
    rw [List.cons_append, bars_cons, bars_cons, escapes_cons]
    split_ifs with h
    · have hplain : (c == CodePoint.ofChar '\\') = false := by
        rw [h.1]
        rfl
      rw [ih, hplain]
      omega
    · exact ih _

/-- A character that is neither a bar nor a backslash takes part in no escape. -/
theorem bars_append_cons {c : CodePoint} (hbar : c ≠ '|') (hslash : c ≠ '\\') (escaped : Bool)
    (t u : Text) : bars escaped (t ++ c :: u) = bars escaped t + bars false u := by
  rw [bars_append, bars_cons, if_neg fun h => hbar h.1, beq_eq_false_iff_ne.2 hslash]

theorem bars_eq_zero (h : bars false t = 0) (escaped : Bool) : bars escaped t = 0 := by
  cases t with
  | nil => rfl
  | cons c t =>
    rw [bars_cons] at h ⊢
    split_ifs at h ⊢ <;> simp_all

theorem cutAtBars_append (h : bars escaped t = 0) (rest : Text) :
    cutAtBars escaped (t ++ rest) =
      (cutAtBars (escapes escaped t) rest).modifyHead (t ++ ·) := by
  induction t generalizing escaped with
  | nil => exact (congrFun List.modifyHead_id _).symm
  | cons c t ih =>
    rw [bars_cons] at h
    rw [List.cons_append, cutAtBars_eq, escapes_cons]
    split_ifs at h ⊢
    rw [ih h, List.modifyHead_modifyHead]
    rfl

/-- A text stays inside a cell if it ends no line and has no free bar. -/
theorem isCell_iff : IsCell t ↔ (∀ c ∈ t, isLineEnd c = false) ∧ bars false t = 0 := by
  constructor
  · intro h
    refine ⟨h.unbroken, ?_⟩
    obtain ⟨escaped', hcut⟩ := h.sealed false []
    have hlength := congrArg List.length hcut
    rw [List.append_nil, length_cutAtBars, List.length_modifyHead] at hlength
    have hone : (cutAtBars escaped' []).length = 1 := rfl
    exact Nat.succ.inj (hlength.trans hone)
  · rintro ⟨hunbroken, hbars⟩
    exact ⟨hunbroken, fun escaped rest =>
      ⟨_, cutAtBars_append (bars_eq_zero hbars escaped) rest⟩⟩

theorem isCell_append_cons_iff {c : CodePoint} (hbar : c ≠ '|') (hslash : c ≠ '\\')
    (hend : isLineEnd c = false) : IsCell (t ++ c :: u) ↔ IsCell t ∧ IsCell u := by
  simp only [isCell_iff, bars_append_cons hbar hslash, Nat.add_eq_zero_iff, List.forall_mem_append,
    List.forall_mem_cons, hend, true_and]
  tauto

theorem isCell_cons_iff {c : CodePoint} (hbar : c ≠ '|') (hslash : c ≠ '\\')
    (hend : isLineEnd c = false) : IsCell (c :: u) ↔ IsCell u := by
  have happend : IsCell ([] ++ c :: u) ↔ IsCell [] ∧ IsCell u :=
    isCell_append_cons_iff hbar hslash hend
  exact happend.trans (and_iff_right isCell_nil)

/-- Texts with commas between them stay inside a cell if each of them does. -/
theorem isCell_join_iff {ts : List Text} :
    IsCell (Text.join (Text.ofString ", ") ts) ↔ ∀ t ∈ ts, IsCell t := by
  induction ts with
  | nil => simpa [Text.join] using isCell_nil
  | cons t ts ih =>
    cases ts with
    | nil => simp [Text.join]
    | cons t' ts =>
      have hjoin : Text.join (Text.ofString ", ") (t :: t' :: ts) =
          t ++ CodePoint.ofChar ',' :: CodePoint.ofChar ' ' ::
            Text.join (Text.ofString ", ") (t' :: ts) := by
        rw [Text.join]
        · simp [Text.ofString]
        · simp
      rw [hjoin, isCell_append_cons_iff (by decide) (by decide) (by decide),
        isCell_cons_iff (by decide) (by decide) (by decide), ih,
        List.forall_mem_cons (a := t)]

/-- A hyphen in place of nothing changes nothing. -/
theorem isCell_hyphenated_iff : IsCell (hyphenated t) ↔ IsCell t := by
  cases t with
  | nil => exact iff_of_true (isCell_ofString rfl) isCell_nil
  | cons c t => rfl

/-! ## Lines of tables -/

/-- A line of a table: a text that ends no line, and that the free bars cut into a number of cells
between the bars at its two ends. -/
structure IsTableLine (n : Nat) (line : Text) : Prop where
  unbroken : ∀ c ∈ line, isLineEnd c = false
  cells : ∃ cells, cells.length = n ∧ cutAtBars false line = [] :: (cells ++ [[]])

/-- The line of a row is a bar and then each cell with a bar behind it. -/
theorem row_eq_flatMap {cells : List Text} (hne : cells ≠ []) :
    row cells = CodePoint.ofChar '|' ::
      cells.flatMap fun cell => Text.ofString " " ++ cell ++ Text.ofString " |" := by
  have hjoin : Text.ofString " " ++ Text.join (Text.ofString " | ") cells ++ Text.ofString " |" =
      cells.flatMap fun cell => Text.ofString " " ++ cell ++ Text.ofString " |" := by
    induction cells with
    | nil => exact absurd rfl hne
    | cons cell cells ih =>
      cases cells with
      | nil => simp [Text.join]
      | cons cell' cells =>
        rw [List.flatMap_cons, ← ih (List.cons_ne_nil _ _), Text.join]
        · simp [Text.ofString]
        · simp
  rw [← hjoin]
  simp [row, Text.ofString]

/-- The bars of a row are those around its cells and the free ones in them. -/
theorem bars_row {cells : List Text} (hne : cells ≠ []) :
    bars false (row cells) = 1 + cells.length + (cells.map (bars false)).sum := by
  have hcells : ∀ cells : List Text, bars false
      (cells.flatMap fun cell => Text.ofString " " ++ cell ++ Text.ofString " |") =
        cells.length + (cells.map (bars false)).sum := by
    intro cells
    induction cells with
    | nil => rfl
    | cons cell cells ih =>
      have hcell : ∀ rest, Text.ofString " " ++ cell ++ Text.ofString " |" ++ rest =
          CodePoint.ofChar ' ' ::
            (cell ++ CodePoint.ofChar ' ' :: CodePoint.ofChar '|' :: rest) := by
        simp [Text.ofString]
      rw [List.flatMap_cons, hcell, bars_cons, if_neg (by decide),
        bars_append_cons (by decide) (by decide), bars_cons, if_pos (by decide), ih,
        List.length_cons, List.map_cons, List.sum_cons]
      have hblank : bars (CodePoint.ofChar ' ' == CodePoint.ofChar '\\') = bars false := rfl
      rw [hblank]
      omega
  rw [row_eq_flatMap hne, bars_cons, if_pos (by decide), hcells]
  omega

/-- The line of a row has as many cells as the row exactly if each of them stays inside its
place. -/
theorem isTableLine_row_iff {cells : List Text} (hne : cells ≠ []) :
    IsTableLine cells.length (row cells) ↔ ∀ cell ∈ cells, IsCell cell := by
  constructor
  · rintro ⟨hunbroken, pieces, hlength, hcut⟩ cell hcell
    have hbars := bars_row hne
    have hpieces := congrArg List.length hcut
    rw [length_cutAtBars, hbars, List.length_cons, List.length_append, hlength] at hpieces
    have hsum : (cells.map (bars false)).sum = 0 := by
      simp at hpieces
      omega
    rw [row_eq_flatMap hne, List.forall_mem_cons] at hunbroken
    refine isCell_iff.2 ⟨fun c hc => hunbroken.2 c ?_, ?_⟩
    · exact List.mem_flatMap.2 ⟨cell, hcell, by simp [hc]⟩
    · exact List.sum_eq_zero_iff.1 hsum _ (List.mem_map_of_mem hcell)
  · intro h
    exact ⟨unbroken_row h, _, List.length_map .., isRow_row hne h⟩

/-! ## Numbers in cells -/

def AllPlain (cs : List Char) : Prop := ∀ c ∈ cs, c ≠ '|' ∧ c ≠ '\n' ∧ c ≠ '\r'

theorem AllPlain.append {cs ds : List Char} (hcs : AllPlain cs) (hds : AllPlain ds) :
    AllPlain (cs ++ ds) := by
  intro c hc
  exact (List.mem_append.1 hc).elim (hcs c) (hds c)

theorem allPlain_of_digits {cs : List Char} (h : Json.AllDigits cs) : AllPlain cs := by
  intro c hc
  have hdigit := h c hc
  refine ⟨?_, ?_, ?_⟩ <;> rintro rfl <;> cases hdigit

theorem allPlain_sign (x : Binary64) : AllPlain (Format.sign x) := by
  rw [Format.sign]
  split_ifs
  · simp [AllPlain]
  · simp [AllPlain]

theorem isCell_ofChars {cs : List Char} (h : AllPlain cs) : IsCell (Text.ofChars cs) := by
  refine isCell_of_forall fun c hc => ?_
  obtain ⟨d, hd, rfl⟩ := List.mem_map.1 hc
  obtain ⟨hbar, hfeed, hreturn⟩ := h d hd
  simp [isLineEnd, CodePoint.ofChar_injective.eq_iff, hbar, hfeed, hreturn]

theorem isCell_number (n : Int) : IsCell (number n) := by
  have hdigits := allPlain_of_digits (Json.allDigits_digits n.natAbs)
  refine isCell_ofChars ?_
  rw [Format.integer]
  split_ifs
  · exact List.forall_mem_cons.2 ⟨by decide, hdigits⟩
  · exact hdigits

theorem allPlain_fixedChars (places : Nat) (x : Binary64) :
    AllPlain (Format.fixedChars places x) := by
  have hratio : ∀ num den, AllPlain (Format.fixedRatio places num den) := by
    intro num den
    rw [Format.fixedRatio]
    split_ifs
    · exact allPlain_of_digits (Json.allDigits_digits _)
    · exact (allPlain_of_digits (Json.allDigits_digits _)).append (List.forall_mem_cons.2
        ⟨by decide, allPlain_of_digits (Json.allDigits_padded _ _)⟩)
  cases x with
  | nan => simp [Format.fixedChars, AllPlain]
  | infinity negative =>
    refine (allPlain_sign _).append ?_
    simp [AllPlain]
  | finite negative m e h => exact (allPlain_sign _).append (hratio _ _)

/-- A printed size stays inside its cell. -/
theorem isCell_megabytes {n : Int} {t : String} (h : Size.megabytes n = .ok t) :
    IsCell (Text.ofString t) := by
  rw [Size.megabytes] at h
  cases hratio : Size.ratio n with
  | none =>
    rw [hratio] at h
    cases h
  | some x =>
    rw [hratio] at h
    obtain rfl := Except.ok.inj h
    rw [Text.ofString_append, Format.fixed, Text.ofString, String.toList_ofList]
    exact (isCell_ofChars (allPlain_fixedChars 2 x)).append (isCell_ofString rfl)

end Markdown
end ContainerDocs
