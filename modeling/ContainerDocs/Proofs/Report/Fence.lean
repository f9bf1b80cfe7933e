import ContainerDocs.Proofs.Output.Region
import ContainerDocs.Report.Cell

/-!
# Fences around shown texts

A report shows texts between pieces of its template. A piece that a pattern can neither start nor
end in keeps the pattern from reaching out of a shown text, and a piece that also holds a code point
foreign to the pattern is a fence: a pattern is on one side of it. So a pattern is in a report
exactly if it is in one of the shown texts.

## Main definitions

* `IsInert`, `IsFence` — pieces of a template that keep a pattern away.
* `Encloses` — a text that shows texts behind fences.

## Main statements

* `IsFence.encloses` — a pattern is on one side of a fence.
* `Encloses.append`, `Encloses.around`, `Encloses.code_append` — enclosing texts one after another,
  around a raw text and after a piece of code.
* `Encloses.infix_flatMap_iff` — a pattern is in a list of rows exactly if a row shows it.
-/

namespace ContainerDocs

namespace Section

variable {α : Type} {p u v : List α} {a c : α}

/-- A pattern is on one side of an element that it does not hold. -/
theorem infix_append_cons_iff (hc : c ∉ p) : p <:+: u ++ c :: v ↔ p <:+: u ∨ p <:+: v := by
  constructor
  · rintro ⟨x, y, h⟩
    rcases append_cons_eq_append hc h.symm with ⟨y', hu, -⟩ | ⟨x', -, hv⟩
    · exact .inl ⟨x, y', hu.symm⟩
    · exact .inr ⟨x', y, hv.symm⟩
  · rintro (h | h)
    · exact h.trans (List.prefix_append _ _).isInfix
    · exact h.trans ((List.suffix_cons c v).trans (List.suffix_append _ _)).isInfix

/-- A pattern is behind elements that it does not start with. -/
theorem infix_append_iff_of_head? (ha : p.head? = some a) (hu : a ∉ u) :
    p <:+: u ++ v ↔ p <:+: v := by
  induction u with
  | nil => rfl
  | cons b u ih =>
    rw [List.mem_cons, not_or] at hu
    rw [List.cons_append, List.infix_cons_iff, ih hu.2, or_iff_right]
    intro hprefix
    obtain ⟨rest, hp⟩ := List.head?_eq_some_iff.1 ha
    rw [hp, List.cons_prefix_cons] at hprefix
    exact hu.1 hprefix.1

/-- A pattern is before elements that it does not end with. -/
theorem infix_append_iff_of_getLast? (ha : p.getLast? = some a) (hv : a ∉ v) :
    p <:+: u ++ v ↔ p <:+: u := by
  rw [← List.reverse_infix, List.reverse_append,
    infix_append_iff_of_head? (a := a) (by rwa [List.head?_reverse]) (by simpa using hv),
    List.reverse_infix]

theorem infix_dropWhile_iff {q : α → Bool} (hp : p ≠ []) (hq : ∀ c, q c = true → p.head? ≠ some c)
    (u : List α) : p <:+: u.dropWhile q ↔ p <:+: u := by
  induction u with
  | nil => rfl
  | cons c u ih =>
    rw [List.dropWhile_cons]
    split
    next hc =>
      rw [ih, List.infix_cons_iff, or_iff_right]
      intro hprefix
      obtain ⟨a, rest, rfl⟩ := List.exists_cons_of_ne_nil hp
      exact hq c hc (congrArg some (List.cons_prefix_cons.1 hprefix).1)
    next => rfl

/-- What is trimmed holds no pattern that neither starts nor ends with an element of the class. -/
theorem infix_trim_iff {q : α → Bool} (hp : p ≠ [])
    (hq : ∀ c, q c = true → p.head? ≠ some c ∧ p.getLast? ≠ some c) (u : List α) :
    p <:+: Blank.trim q u ↔ p <:+: u := by
  have hreverse : p.reverse ≠ [] := by simpa using hp
  have hlast : ∀ c, q c = true → p.reverse.head? ≠ some c := by
    intro c hc
    rw [List.head?_reverse]
    exact (hq c hc).2
  rw [Blank.trim, Blank.trimRight, ← List.reverse_infix, List.reverse_reverse,
    infix_dropWhile_iff hreverse hlast, List.reverse_infix,
    infix_dropWhile_iff hp fun c hc => (hq c hc).1]

end Section

open Section

/-- A text in which a pattern neither starts nor ends. -/
def IsInert (p t : Text) : Prop := ∀ c ∈ t, p.head? ≠ some c ∧ p.getLast? ≠ some c

/-- A text that keeps apart what is before it and what is after it, as far as a pattern goes. -/
def IsFence (p t : Text) : Prop := IsInert p t ∧ ∃ c ∈ t, c ∉ p

/-- A text that shows texts and keeps them apart from what is before it and after it: a pattern
around here is before it, in a shown text or after it. -/
def Encloses (p t : Text) (shown : List Text) : Prop :=
  ∀ u v, p <:+: u ++ (t ++ v) ↔ p <:+: u ∨ (∃ s ∈ shown, p <:+: s) ∨ p <:+: v

variable {p g t t' : Text} {shown shown' : List Text}

/-! ## Pieces of templates -/

section Piece

theorem IsInert.append (h : IsInert p t) (h' : IsInert p t') : IsInert p (t ++ t') := by
  intro c hc
  rcases List.mem_append.1 hc with hc | hc
  · exact h c hc
  · exact h' c hc

variable (hp : p ≠ [])
include hp

theorem IsInert.infix_append_iff (h : IsInert p g) (v : Text) : p <:+: g ++ v ↔ p <:+: v := by
  obtain ⟨a, ha⟩ := Option.ne_none_iff_exists'.1 (mt List.head?_eq_none_iff.1 hp)
  exact infix_append_iff_of_head? ha fun hmem => (h a hmem).1 ha

theorem IsInert.append_infix_iff (h : IsInert p g) (u : Text) : p <:+: u ++ g ↔ p <:+: u := by
  obtain ⟨z, hz⟩ := Option.ne_none_iff_exists'.1 (mt List.getLast?_eq_none_iff.1 hp)
  exact infix_append_iff_of_getLast? hz fun hmem => (h z hmem).2 hz

/-- A pattern is on one side of a fence. -/
theorem IsFence.encloses (h : IsFence p g) : Encloses p g [] := by
  intro u v
  obtain ⟨hinert, c, hc, hcp⟩ := h
  obtain ⟨x, y, rfl⟩ := List.append_of_mem hc
  have hx : IsInert p x := fun d hd => hinert d (List.mem_append_left _ hd)
  have hy : IsInert p y := fun d hd =>
    hinert d (List.mem_append_right _ (List.mem_cons_of_mem c hd))
  have hparts : u ++ (x ++ c :: y ++ v) = u ++ x ++ c :: (y ++ v) := by simp
  rw [hparts, infix_append_cons_iff hcp, hx.append_infix_iff hp, hy.infix_append_iff hp]
  simp

end Piece

/-! ## Enclosing texts -/

namespace Encloses

/-- Texts one after another, whatever text is between them, show theirs and that text. -/
theorem around (h : Encloses p t shown) (s : Text) (h' : Encloses p t' shown') :
    Encloses p (t ++ (s ++ t')) (shown ++ s :: shown') := by
  intro u v
  have hafter := h' s v
  rw [List.append_assoc, List.append_assoc, h u, hafter]
  simp only [List.mem_append, List.mem_cons, or_and_right, exists_or, exists_eq_left, or_assoc]

variable (hp : p ≠ [])
include hp

theorem append (h : Encloses p t shown) (h' : Encloses p t' shown') :
    Encloses p (t ++ t') (shown ++ shown') := by
  intro u v
  have hafter := h' [] v
  rw [List.nil_append, List.infix_nil, or_iff_right hp] at hafter
  rw [List.append_assoc, h u, hafter]
  simp only [List.mem_append, or_and_right, exists_or, or_assoc]

theorem append_inert (h : Encloses p t shown) (h' : IsInert p g) : Encloses p (t ++ g) shown := by
  intro u v
  rw [List.append_assoc, h u, h'.infix_append_iff hp]

theorem inert_append (h' : Encloses p t shown) (h : IsInert p g) : Encloses p (g ++ t) shown := by
  intro u v
  have hparts : u ++ (g ++ t ++ v) = (u ++ g) ++ (t ++ v) := by simp
  rw [hparts, h' (u ++ g), h.append_infix_iff hp]

omit hp in
/-- Only what the shown texts hold matters. -/
theorem congr (h : Encloses p t shown)
    (hshown : (∃ s ∈ shown, p <:+: s) ↔ ∃ s ∈ shown', p <:+: s) : Encloses p t shown' :=
  fun u v => (h u v).trans (or_congr_right (or_congr_left hshown))

/-- A piece of code shows what stands between its marks; without it nothing is shown. -/
theorem code_append (h : Encloses p t shown) (hmark : IsFence p "`") (hhyphen : IsInert p "-")
    (s : Text) : Encloses p (Cell.code s ++ t) (Cell.plain s :: shown) := by
  simp only [Cell.code]
  split_ifs with hempty
  · rw [List.isEmpty_iff] at hempty
    refine (h.inert_append hp hhyphen).congr ?_
    simp [hempty, hp]
  · have hmark := hmark.encloses hp
    simpa using (hmark.around (Cell.plain s) hmark).append hp h

theorem append_code (h : Encloses p t shown) (hmark : IsFence p "`") (hhyphen : IsInert p "-")
    (s : Text) : Encloses p (t ++ Cell.code s) (shown ++ [Cell.plain s]) := by
  simp only [Cell.code]
  split_ifs with hempty
  · rw [List.isEmpty_iff] at hempty
    refine (h.append_inert hp hhyphen).congr ?_
    simp [hempty, hp]
  · have hmark := hmark.encloses hp
    simpa using h.append hp (hmark.around (Cell.plain s) hmark)

/-- Such a text holds a pattern exactly if one of the shown texts does. -/
theorem infix_iff (h : Encloses p t shown) : p <:+: t ↔ ∃ s ∈ shown, p <:+: s := by
  have hall := h [] []
  simpa [hp] using hall

/-- A pattern is in a list of rows exactly if a row shows it. -/
theorem infix_flatMap_iff {α : Type} {row : α → Text} {parts : α → List Text} {as : List α}
    (h : ∀ a ∈ as, Encloses p (row a) (parts a)) :
    p <:+: as.flatMap row ↔ ∃ a ∈ as, ∃ s ∈ parts a, p <:+: s := by
  induction as with
  | nil => simp [hp]
  | cons a as ih =>
    obtain ⟨ha, has⟩ := List.forall_mem_cons.1 h
    have hrow := ha [] (as.flatMap row)
    rw [List.nil_append, List.infix_nil, or_iff_right hp, ih has] at hrow
    rw [List.flatMap_cons, hrow]
    simp

/-- Rows behind an enclosing text. -/
theorem flatMap {α : Type} {row : α → Text} {parts : α → List Text} {as : List α}
    (h : Encloses p t shown) (h' : ∀ a ∈ as, Encloses p (row a) (parts a)) :
    Encloses p (t ++ as.flatMap row) (shown ++ as.flatMap parts) := by
  induction as generalizing t shown with
  | nil => simpa using h
  | cons a as ih =>
    obtain ⟨ha, has⟩ := List.forall_mem_cons.1 h'
    simpa using ih (h.append hp ha) has

end Encloses
end ContainerDocs
