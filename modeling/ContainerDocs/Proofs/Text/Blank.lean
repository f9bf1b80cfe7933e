import ContainerDocs.Text.Blank
import Mathlib.Data.List.DropRight

/-!
# Laws of stripping and of words

Stripping leaves alone what has no blank at its ends, and words that were joined by blanks are found
again.

## Main statements

* `Blank.dropWhile_eq_cons_iff` — where dropping stops.
* `Blank.trim_eq_self` — what has no element of the class at its ends stays.
* `Blank.exists_trim`, `Blank.exists_trimRight` — what stripping takes away and what it leaves.
* `Blank.splitOn_filter`, `Blank.splitOn_append` — the pieces of a part of a text.
* `Blank.splitOn_intercalate`, `Blank.intercalate_splitOn` — splitting and joining are inverse.
* `Blank.words_intercalate` — words joined by single blanks are the words of the result.
* `Blank.words_eq_nil_iff` — only a text of blanks has no words.
-/

namespace ContainerDocs
namespace Blank

/-! ## Stripping -/

section Trim

variable {α : Type} {p : α → Bool} {cs : List α}

theorem dropWhile_eq_self (h : ∀ c ∈ cs.head?, p c = false) : cs.dropWhile p = cs := by
  cases cs with
  | nil => rfl
  | cons c rest => simp [h c rfl]

/-- Where dropping stops: in front of the first element outside the class. -/
theorem dropWhile_eq_cons_iff {c : α} {rest : List α} (hc : p c = false) :
    cs.dropWhile p = c :: rest ↔ ∃ gap, (∀ d ∈ gap, p d = true) ∧ cs = gap ++ c :: rest := by
  constructor
  · intro h
    refine ⟨cs.takeWhile p, fun d hd => List.mem_takeWhile_imp hd, ?_⟩
    rw [← h, List.takeWhile_append_dropWhile]
  · rintro ⟨gap, hg, rfl⟩
    rw [List.dropWhile_append_of_pos hg, List.dropWhile_cons_of_neg (by simp [hc])]

theorem trimRight_eq_self (h : ∀ c ∈ cs.getLast?, p c = false) : trimRight p cs = cs := by
  rw [trimRight, dropWhile_eq_self (by simpa using h), List.reverse_reverse]

/-- What has no element of the class at its ends stays. -/
theorem trim_eq_self (hf : ∀ c ∈ cs.head?, p c = false) (hl : ∀ c ∈ cs.getLast?, p c = false) :
    trim p cs = cs := by
  rw [trim, dropWhile_eq_self hf, trimRight_eq_self hl]

theorem trim_cons_of_pos {c : α} (h : p c = true) : trim p (c :: cs) = trim p cs := by
  simp [trim, h]

theorem trimRight_eq_nil_iff : trimRight p cs = [] ↔ ∀ c ∈ cs, p c = true :=
  List.rdropWhile_eq_nil_iff

/-- Stripping the right end keeps the first element, unless nothing is left. -/
theorem head?_trimRight (h : ∀ c ∈ cs.head?, p c = false) : (trimRight p cs).head? = cs.head? := by
  obtain ⟨rest, hr⟩ : trimRight p cs <+: cs := List.rdropWhile_prefix p cs
  cases hd : trimRight p cs with
  | cons c kept => rw [← hr, hd]; rfl
  | nil =>
    cases cs with
    | nil => rfl
    | cons c rest => exact absurd (trimRight_eq_nil_iff.1 hd c (by simp)) (by simp [h c rfl])

theorem not_head?_dropWhile : ∀ c ∈ (cs.dropWhile p).head?, p c = false := by
  intro c hc
  have hnot := List.head?_dropWhile_not p cs
  rw [Option.mem_def] at hc
  simpa [hc] using hnot

theorem not_head?_trim : ∀ c ∈ (trim p cs).head?, p c = false := by
  rw [trim, head?_trimRight not_head?_dropWhile]
  exact not_head?_dropWhile

theorem not_getLast?_trimRight : ∀ c ∈ (trimRight p cs).getLast?, p c = false := by
  rw [trimRight, List.getLast?_reverse]
  exact not_head?_dropWhile

theorem trimRight_append {tail : List α} (h : ∀ c ∈ tail, p c = true) :
    trimRight p (cs ++ tail) = trimRight p cs := by
  rw [trimRight, List.reverse_append, List.dropWhile_append_of_pos (by simpa using h), trimRight]

theorem trimRight_append_of_ne_nil {lead : List α} (h : trimRight p cs ≠ []) :
    trimRight p (lead ++ cs) = lead ++ trimRight p cs := by
  have hne : cs.reverse.dropWhile p ≠ [] := fun hd => h (by rw [trimRight, hd, List.reverse_nil])
  rw [trimRight, List.reverse_append, List.dropWhile_append, if_neg (by simpa using hne),
    List.reverse_append, List.reverse_reverse, trimRight]

theorem trim_append_left {lead : List α} (h : ∀ c ∈ lead, p c = true) :
    trim p (lead ++ cs) = trim p cs := by
  rw [trim, List.dropWhile_append_of_pos h, trim]

theorem trim_eq_nil_iff : trim p cs = [] ↔ ∀ c ∈ cs, p c = true := by
  rw [trim, trimRight_eq_nil_iff]
  constructor
  · intro h
    cases hd : cs.dropWhile p with
    | nil => exact List.dropWhile_eq_nil_iff.1 hd
    | cons c rest =>
      have hnot : ∀ d ∈ (cs.dropWhile p).head?, p d = false := not_head?_dropWhile
      have hc := hnot c (by simp [hd])
      rw [h c (by simp [hd])] at hc
      cases hc
  · exact fun h c hc => h c ((List.dropWhile_sublist p).subset hc)

/-- What stripping takes away at the two ends. -/
theorem exists_trim (p : α → Bool) (cs : List α) : ∃ lead tail,
    (∀ c ∈ lead, p c = true) ∧ (∀ c ∈ tail, p c = true) ∧ cs = lead ++ trim p cs ++ tail := by
  refine ⟨cs.takeWhile p, ((cs.dropWhile p).reverse.takeWhile p).reverse, ?_, ?_, ?_⟩
  · exact fun c hc => List.mem_takeWhile_imp hc
  · intro c hc
    exact List.mem_takeWhile_imp (List.mem_reverse.1 hc)
  · rw [List.append_assoc, trim, trimRight, ← List.reverse_append, List.takeWhile_append_dropWhile,
      List.reverse_reverse, List.takeWhile_append_dropWhile]

theorem trim_append_right {tail : List α} (h : ∀ c ∈ tail, p c = true) :
    trim p (cs ++ tail) = trim p cs := by
  by_cases hall : ∀ c ∈ cs, p c = true
  · have hboth : ∀ c ∈ cs ++ tail, p c = true := by
      intro c hc
      exact (List.mem_append.1 hc).elim (hall c) (h c)
    rw [trim_eq_nil_iff.2 hall, trim_eq_nil_iff.2 hboth]
  · have hne : cs.dropWhile p ≠ [] := fun hd => hall (List.dropWhile_eq_nil_iff.1 hd)
    rw [trim, List.dropWhile_append, if_neg (by simpa using hne), trimRight_append h, trim]

/-- Stripping the right end alone leaves the leading elements of the class in front, unless nothing
else is there. -/
theorem exists_trimRight (p : α → Bool) (cs : List α) : ∃ lead,
    (∀ c ∈ lead, p c = true) ∧ trimRight p cs = lead ++ trim p cs := by
  obtain ⟨lead, tail, hlead, htail, hcs⟩ := exists_trim p cs
  by_cases hnil : trim p cs = []
  · refine ⟨[], by simp, ?_⟩
    rw [hnil]
    exact trimRight_eq_nil_iff.2 (trim_eq_nil_iff.1 hnil)
  · refine ⟨lead, hlead, ?_⟩
    have hlast : ∀ c ∈ (lead ++ trim p cs).getLast?, p c = false := by
      rw [List.getLast?_append_of_ne_nil _ hnil]
      exact not_getLast?_trimRight
    conv_lhs => rw [hcs]
    rw [trimRight_append htail, trimRight_eq_self hlast]

theorem trim_trimRight : trim p (trimRight p cs) = trim p cs := by
  obtain ⟨lead, tail, -, htail, -⟩ := exists_trim p cs
  obtain ⟨lead, hlead, h⟩ := exists_trimRight p cs
  rw [h, trim_append_left hlead]
  exact trim_eq_self not_head?_trim not_getLast?_trimRight

theorem getLast?_trimRight : (trimRight p cs).getLast? = (trim p cs).getLast? := by
  obtain ⟨lead, hlead, h⟩ := exists_trimRight p cs
  by_cases hnil : trim p cs = []
  · rw [hnil, trimRight_eq_nil_iff.2 (trim_eq_nil_iff.1 hnil)]
  · rw [h, List.getLast?_append_of_ne_nil _ hnil]

theorem trim_dropLast_trimRight :
    trim p (trimRight p cs).dropLast = trim p (trim p cs).dropLast := by
  obtain ⟨lead, hlead, h⟩ := exists_trimRight p cs
  by_cases hnil : trim p cs = []
  · rw [hnil, trimRight_eq_nil_iff.2 (trim_eq_nil_iff.1 hnil)]
  · rw [h, List.dropLast_append_of_ne_nil hnil, trim_append_left hlead]

end Trim

section Strip

variable {cs : List Char}

@[simp] theorem strip_strip : strip (strip cs) = strip cs :=
  trim_eq_self not_head?_trim not_getLast?_trimRight

@[simp] theorem strip_stripRight : strip (stripRight cs) = strip cs := trim_trimRight

theorem getLast?_stripRight : (stripRight cs).getLast? = (strip cs).getLast? := getLast?_trimRight

theorem strip_dropLast_stripRight : strip (stripRight cs).dropLast = strip (strip cs).dropLast :=
  trim_dropLast_trimRight

end Strip

/-! ## Words -/

section Words

variable {w : List Char} {c : Char}

section Pieces

variable {α : Type} {p q : α → Bool} {cs w first : List α} {more : List (List α)} {c : α}

theorem splitOn_cons_of_pos (hc : p c = true) (cs : List α) :
    splitOn p (c :: cs) = [] :: splitOn p cs := if_pos hc

theorem splitOn_cons_of_neg (hc : p c = false) (h : splitOn p cs = first :: more) :
    splitOn p (c :: cs) = (c :: first) :: more := by
  rw [splitOn, if_neg (Bool.not_eq_true _ ▸ hc), h]

theorem exists_splitOn (p : α → Bool) (cs : List α) :
    ∃ first more, splitOn p cs = first :: more := by
  induction cs with
  | nil => exact ⟨[], [], rfl⟩
  | cons c rest ih =>
    obtain ⟨first, more, hrest⟩ := ih
    cases hc : p c with
    | true => exact ⟨_, _, splitOn_cons_of_pos hc rest⟩
    | false => exact ⟨_, _, splitOn_cons_of_neg hc hrest⟩

theorem splitOn_ne_nil (cs : List α) : splitOn p cs ≠ [] := by
  obtain ⟨first, more, h⟩ := exists_splitOn p cs
  exact h ▸ List.cons_ne_nil first more

theorem splitOn_append_cons {rest : List α} (hw : ∀ d ∈ w, p d = false) (hc : p c = true) :
    splitOn p (w ++ c :: rest) = w :: splitOn p rest := by
  induction w with
  | nil => exact splitOn_cons_of_pos hc rest
  | cons d w ih =>
    obtain ⟨hd, hw⟩ := List.forall_mem_cons.1 hw
    exact splitOn_cons_of_neg hd (ih hw)

theorem splitOn_eq_singleton (hw : ∀ d ∈ w, p d = false) : splitOn p w = [w] := by
  induction w with
  | nil => rfl
  | cons d w ih =>
    obtain ⟨hd, hw⟩ := List.forall_mem_cons.1 hw
    exact splitOn_cons_of_neg hd (ih hw)

/-- Leaving elements out leaves them out of each piece. -/
theorem splitOn_filter (h : ∀ a, p a = true → q a = true) (cs : List α) :
    splitOn p (cs.filter q) = (splitOn p cs).map (List.filter q) := by
  induction cs with
  | nil => rfl
  | cons c rest ih =>
    obtain ⟨first, more, hrest⟩ := exists_splitOn p rest
    cases hp : p c with
    | true =>
      rw [List.filter_cons_of_pos (h c hp), splitOn_cons_of_pos hp, splitOn_cons_of_pos hp, ih]
      rfl
    | false =>
      rw [hrest] at ih
      rw [splitOn_cons_of_neg hp hrest]
      cases hq : q c with
      | true =>
        rw [List.filter_cons_of_pos hq, splitOn_cons_of_neg hp ih, List.map_cons,
          List.filter_cons_of_pos hq]
      | false =>
        rw [List.filter_cons_of_neg (by simp [hq]), ih, List.map_cons, List.map_cons,
          List.filter_cons_of_neg (by simp [hq])]

theorem takeWhile_of_splitOn (h : splitOn p cs = first :: more) :
    cs.takeWhile (fun c => !p c) = first := by
  induction cs generalizing first more with
  | nil =>
    cases h
    rfl
  | cons c rest ih =>
    cases hp : p c with
    | true =>
      rw [splitOn_cons_of_pos hp] at h
      cases h
      exact List.takeWhile_cons_of_neg (by simp [hp])
    | false =>
      obtain ⟨piece, pieces, hrest⟩ := exists_splitOn p rest
      rw [splitOn_cons_of_neg hp hrest] at h
      cases h
      rw [List.takeWhile_cons_of_pos (by simp [hp]), ih hrest]

theorem length_splitOn (cs : List α) : (splitOn p cs).length = cs.countP p + 1 := by
  induction cs with
  | nil => rfl
  | cons c rest ih =>
    cases hp : p c with
    | true => rw [splitOn_cons_of_pos hp, List.countP_cons_of_pos hp, List.length_cons, ih]
    | false =>
      obtain ⟨first, more, hrest⟩ := exists_splitOn p rest
      rw [splitOn_cons_of_neg hp hrest, List.countP_cons_of_neg (by simp [hp]), ← ih, hrest,
        List.length_cons, List.length_cons]

/-- What stands in a text stands between two pieces or in one of them. -/
theorem mem_splitOn (h : c ∈ cs) : p c = true ∨ ∃ part ∈ splitOn p cs, c ∈ part := by
  induction cs with
  | nil => cases h
  | cons d rest ih =>
    cases hp : p d with
    | true =>
      rw [splitOn_cons_of_pos hp]
      rcases List.mem_cons.1 h with rfl | h
      · exact .inl hp
      · exact (ih h).imp_right List.exists_mem_cons_of_exists
    | false =>
      obtain ⟨first, more, hrest⟩ := exists_splitOn p rest
      rw [hrest] at ih
      rw [splitOn_cons_of_neg hp hrest]
      rcases List.mem_cons.1 h with rfl | h
      · exact .inr ⟨_, List.mem_cons_self, List.mem_cons_self⟩
      · refine (ih h).imp_right ?_
        rintro ⟨part, hpart, hc⟩
        rcases List.mem_cons.1 hpart with rfl | hpart
        · exact ⟨_, List.mem_cons_self, List.mem_cons_of_mem _ hc⟩
        · exact ⟨part, List.mem_cons_of_mem _ hpart, hc⟩

/-- What holds no element of the class goes on the last piece. -/
theorem splitOn_append {tail : List α} (h : ∀ c ∈ tail, p c = false) (cs : List α) :
    ∃ init last, splitOn p cs = init ++ [last] ∧
      splitOn p (cs ++ tail) = init ++ [last ++ tail] := by
  induction cs with
  | nil => exact ⟨[], [], rfl, splitOn_eq_singleton h⟩
  | cons c rest ih =>
    obtain ⟨init, last, hrest, htail⟩ := ih
    cases hp : p c with
    | true =>
      refine ⟨[] :: init, last, ?_, ?_⟩
      · rw [splitOn_cons_of_pos hp, hrest, List.cons_append]
      · rw [List.cons_append, splitOn_cons_of_pos hp, htail, List.cons_append]
    | false =>
      cases init with
      | nil => exact ⟨[], c :: last, splitOn_cons_of_neg hp hrest, splitOn_cons_of_neg hp htail⟩
      | cons piece pieces =>
        exact ⟨(c :: piece) :: pieces, last, splitOn_cons_of_neg hp hrest,
          splitOn_cons_of_neg hp htail⟩

theorem exists_mem_of_splitOn {second : List α} (h : splitOn p cs = first :: second :: more) :
    ∃ c ∈ cs, p c = true := by
  by_contra hnone
  push Not at hnone
  rw [splitOn_eq_singleton fun c hc => Bool.not_eq_true _ ▸ hnone c hc] at h
  cases h

end Pieces

/-- Pieces joined by an element of the class are the pieces of the result. -/
theorem splitOn_intercalate {α : Type} {p : α → Bool} {c : α} (hc : p c = true)
    (ws : List (List α)) (hne : ws ≠ []) (h : ∀ w ∈ ws, ∀ d ∈ w, p d = false) :
    splitOn p (List.intercalate [c] ws) = ws := by
  induction ws with
  | nil => exact absurd rfl hne
  | cons w ws ih =>
    have hw := h w (by simp)
    cases ws with
    | nil => simpa [List.intercalate_singleton] using splitOn_eq_singleton hw
    | cons v ws =>
      rw [List.intercalate_cons_cons, List.append_assoc, List.singleton_append,
        splitOn_append_cons hw hc, ih (by simp) fun u hu => h u (by simp [hu])]

/-- The pieces around an element, joined by it, are the text. -/
theorem intercalate_splitOn {α : Type} [BEq α] [LawfulBEq α] (c : α) (cs : List α) :
    List.intercalate [c] (splitOn (· == c) cs) = cs := by
  induction cs with
  | nil => rfl
  | cons d cs ih =>
    obtain ⟨piece, pieces, hs⟩ := exists_splitOn (· == c) cs
    by_cases hd : d = c
    · subst hd
      rw [splitOn_cons_of_pos (p := (· == d)) (beq_self_eq_true d), hs,
        List.intercalate_cons_cons, ← hs, ih]
      rfl
    · rw [hs] at ih
      rw [splitOn_cons_of_neg (p := (· == c)) (beq_false_of_ne hd) hs]
      cases pieces with
      | nil => simpa using ih
      | cons next pieces =>
        rw [List.intercalate_cons_cons, List.cons_append, List.cons_append,
          ← List.intercalate_cons_cons, ih]

theorem of_mem_intercalate {α : Type} {c d : α} {ws : List (List α)}
    (h : d ∈ List.intercalate [c] ws) : d = c ∨ ∃ w ∈ ws, d ∈ w := by
  induction ws with
  | nil => simp at h
  | cons w ws ih =>
    cases ws with
    | nil => exact .inr ⟨w, by simp, by simpa [List.intercalate_singleton] using h⟩
    | cons v ws =>
      rw [List.intercalate_cons_cons, List.append_assoc, List.singleton_append] at h
      obtain hw | hrest := List.mem_append.1 h
      · exact .inr ⟨w, by simp, hw⟩
      · obtain rfl | hrest := List.mem_cons.1 hrest
        · exact .inl rfl
        · obtain hc | ⟨u, hu, hd⟩ := ih hrest
          · exact .inl hc
          · exact .inr ⟨u, by simp [hu], hd⟩

/-- Words joined by single blanks are the words of the result. -/
theorem words_intercalate (hc : isBlank c = true) (ws : List (List Char))
    (h : ∀ w ∈ ws, w ≠ [] ∧ ∀ d ∈ w, isBlank d = false) :
    words (List.intercalate [c] ws) = ws := by
  by_cases hne : ws = []
  · rw [hne]
    rfl
  · rw [words, splitOn_intercalate hc ws hne fun w hw => (h w hw).2, List.filter_eq_self]
    exact fun w hw => by simpa using (h w hw).1

/-- Only a text of blanks has no words. -/
theorem words_eq_nil_iff {cs : List Char} : words cs = [] ↔ ∀ c ∈ cs, isBlank c = true := by
  induction cs with
  | nil => exact ⟨fun _ => List.forall_mem_nil _, fun _ => rfl⟩
  | cons c rest ih =>
    rw [words] at ih ⊢
    cases h : isBlank c with
    | true =>
      rw [splitOn_cons_of_pos h]
      simpa [h] using ih
    | false =>
      obtain ⟨piece, pieces, hs⟩ := exists_splitOn isBlank rest
      simp [splitOn_cons_of_neg h hs, h]

/-- A text that starts with characters that are not blank has a first word that starts with them. -/
theorem firstWord?_append (hne : w ≠ []) (hw : ∀ d ∈ w, isBlank d = false) (rest : List Char) :
    ∃ more after, firstWord? (w ++ rest) = some (w ++ more, after) := by
  have hs : stripLeft (w ++ rest) = w ++ rest := by
    refine dropWhile_eq_self fun c hc => ?_
    rw [List.head?_append_of_ne_nil _ hne] at hc
    exact hw c (List.mem_of_mem_head? hc)
  have ht : (w ++ rest).takeWhile (!isBlank ·) = w ++ rest.takeWhile (!isBlank ·) :=
    List.takeWhile_append_of_pos fun d hd => by simp [hw d hd]
  obtain ⟨d, v, rfl⟩ := List.exists_cons_of_ne_nil hne
  rw [firstWord?, hs]
  exact ⟨_, _, congrArg some (Prod.ext ht rfl)⟩

end Words

end Blank
end ContainerDocs
