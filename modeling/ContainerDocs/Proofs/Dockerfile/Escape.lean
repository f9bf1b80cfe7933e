import ContainerDocs.Proofs.Dockerfile.Reader

/-!
# The escape character

The escape is the backslash or the backtick, and only a directive changes it. A line that it does
not end is an instruction of its own.

## Main definitions

* `Reader.IsEscapeChar` — the characters that may be the escape.
* `Reader.Whole` — a text that is a whole line of its own.

## Main statements

* `Reader.isEscapeChar_after` — the escape is always one of the two characters.
* `Reader.step_whole` — a whole line is a complete instruction.
-/

namespace ContainerDocs
namespace Reader

/-! ## The escape character -/

theorem escape_complete (st : State) (first : Nat) (opening : Line) (pieces : List Line) :
    (complete st first opening pieces).1.escape = st.escape := by
  have h := complete_completion st first opening pieces
  generalize complete st first opening pieces = result at h
  obtain ⟨next, events⟩ := result
  dsimp only at h ⊢
  cases h <;> rfl

theorem escape_extend (st : State) (first : Nat) (opening : Line) (pieces : List Line)
    (line : Line) : (extend st first opening pieces line).1.escape = st.escape := by
  rw [extend]
  split
  · rfl
  · exact escape_complete ..

/-- Only a directive changes the escape. -/
theorem escape_step (st : State) (line : Line) :
    (step st line).1.escape = st.escape ∨
      ∃ name value, (step st line).1.escape = escapeAfter st.escape name value := by
  cases hm : st.mode with
  | ready =>
    by_cases hb : isBlankLine line = true
    · exact .inl (by rw [step_blank hm hb])
    by_cases hc : isComment line = true
    · cases hd : (if st.preamble then directive? (Blank.strip line) else none) with
      | none =>
        refine .inl ?_
        rw [step_comment hm hc fun hp => by simpa [hp] using hd]
      | some assignment =>
        obtain ⟨name, value⟩ := assignment
        have hp : st.preamble = true := by
          by_contra hp
          simp [hp] at hd
        refine .inr ⟨name, value, ?_⟩
        rw [step_directive hm hc hp (by simpa [hp] using hd)]
    · refine .inl ?_
      rw [step_opening hm (by simpa using hb) (by simpa using hc), escape_extend]
  | continued first opening pieces =>
    refine .inl ?_
    cases hs : isBlankLine line || isComment line with
    | true => rw [step_passedOver hm hs]
    | false => rw [step_continuing hm hs, escape_extend]
  | hereDocument terminator =>
    refine .inl ?_
    by_cases ht : Blank.strip line = terminator
    · rw [step_terminator hm ht]
    · rw [step_body hm ht]

/-- Whether a character may be the escape: the backslash or the backtick. -/
def IsEscapeChar (c : Char) : Prop := c = '\\' ∨ c.toNat = 96

theorem isEscapeChar_escapeAfter {escape : Char} (h : IsEscapeChar escape) (name value : Line) :
    IsEscapeChar (escapeAfter escape name value) := by
  unfold escapeAfter
  split
  · split
    · split
      next hc => exact hc
      next => exact h
    · exact h
  · exact h

/-- The escape is the backslash or the backtick. -/
theorem isEscapeChar_after {st : State} (h : IsEscapeChar st.escape) (lines : List Line) :
    IsEscapeChar (after st lines).escape := by
  induction lines generalizing st with
  | nil => exact h
  | cons line lines ih =>
    refine ih ?_
    obtain hs | ⟨name, value, hs⟩ := escape_step st line
    · rwa [hs]
    · rw [hs]
      exact isEscapeChar_escapeAfter h name value

theorem IsEscapeChar.not_isBlank {c : Char} (h : IsEscapeChar c) : Blank.isBlank c = false := by
  obtain rfl | h := h
  · decide
  · rw [Blank.isBlank, h]
    decide

/-! ## Whole lines -/

/-- Whether a text is a whole line of its own: it neither starts nor ends with a blank, and the
escape does not end it. -/
structure Whole (escape : Char) (cs : List Char) : Prop where
  head : ∃ c ∈ cs.head?, Blank.isBlank c = false
  last : ∃ c ∈ cs.getLast?, Blank.isBlank c = false ∧ c ≠ escape

namespace Whole

variable {escape : Char} {cs ds : List Char}

theorem ne_nil (h : Whole escape cs) : cs ≠ [] := by
  rintro rfl
  simpa using h.head

theorem not_blank_head (h : Whole escape cs) : ∀ c ∈ cs.head?, Blank.isBlank c = false := by
  obtain ⟨d, hd, hb⟩ := h.head
  intro c hc
  rwa [Option.mem_unique hc hd]

theorem not_blank_last (h : Whole escape cs) : ∀ c ∈ cs.getLast?, Blank.isBlank c = false := by
  obtain ⟨d, hd, hb, -⟩ := h.last
  intro c hc
  rwa [Option.mem_unique hc hd]

theorem strip_eq (h : Whole escape cs) : Blank.strip cs = cs :=
  Blank.trim_eq_self h.not_blank_head h.not_blank_last

theorem stripRight_eq (h : Whole escape cs) : Blank.stripRight cs = cs :=
  Blank.trimRight_eq_self h.not_blank_last

theorem of_forall (hne : cs ≠ []) (h : ∀ c ∈ cs, Blank.isBlank c = false ∧ c ≠ escape) :
    Whole escape cs where
  head := ⟨_, List.head?_eq_some_head hne, (h _ (List.head_mem hne)).1⟩
  last := ⟨_, List.getLast?_eq_some_getLast hne, h _ (List.getLast_mem hne)⟩

theorem append (hc : Whole escape cs) (mid : List Char) (hd : Whole escape ds) :
    Whole escape (cs ++ mid ++ ds) := by
  obtain ⟨c, hc, hb⟩ := hc.head
  obtain ⟨d, hd, he⟩ := hd.last
  rw [Option.mem_def] at hc hd
  exact ⟨⟨c, by simp [hc], hb⟩, ⟨d, by simp [hd], he⟩⟩

/-- Whole texts joined by a text are a whole text. -/
theorem intercalate (mid : List Char) {parts : List (List Char)} (hne : parts ≠ [])
    (h : ∀ part ∈ parts, Whole escape part) : Whole escape (List.intercalate mid parts) := by
  induction parts with
  | nil => exact absurd rfl hne
  | cons part parts ih =>
    have hp := h part (by simp)
    cases parts with
    | nil => simpa [List.intercalate_singleton] using hp
    | cons next parts =>
      rw [List.intercalate_cons_cons]
      exact hp.append mid (ih (by simp) fun q hq => h q (by simp [hq]))

end Whole

/-- A line that the escape does not end, blanks behind it apart, is a complete instruction. -/
theorem step_complete {st : State} {line : Line} (hm : st.mode = .ready)
    (hb : isBlankLine line = false) (hc : isComment line = false)
    (he : (Blank.stripRight line).getLast? ≠ some st.escape) :
    step st line = complete { st with line := st.line + 1, preamble := false } (st.line + 1) line
      [Blank.stripRight line] := by
  rw [step_opening hm hb hc, extend, if_neg he]
  rfl

/-- A whole line that is no comment is a complete instruction. -/
theorem step_whole {st : State} {line : Line} (hm : st.mode = .ready)
    (hw : Whole st.escape line) (hc : line.head? ≠ some '#') :
    step st line =
      complete { st with line := st.line + 1, preamble := false } (st.line + 1) line [line] := by
  have hb : isBlankLine line = false := by simp [isBlankLine, hw.strip_eq, hw.ne_nil]
  have hn : isComment line = false := by simpa [isComment, hw.strip_eq] using hc
  obtain ⟨c, hl, -, he⟩ := hw.last
  have hcont : (Blank.stripRight line).getLast? ≠ some st.escape := by
    rw [hw.stripRight_eq, Option.mem_def.1 hl]
    simpa using he
  rw [step_complete hm hb hn hcont, hw.stripRight_eq]

theorem joinPieces_stripRight {line : Line} (hb : isBlankLine line = false) :
    joinPieces [Blank.stripRight line] = Blank.strip line := by
  rw [isBlankLine] at hb
  simp [joinPieces, hb, List.intercalate_singleton]

theorem joinPieces_whole {escape : Char} {line : Line} (hw : Whole escape line) :
    joinPieces [line] = line := by
  simp [joinPieces, hw.strip_eq, hw.ne_nil, List.intercalate_singleton]

/-- A word of letters and a text after a space are a keyword and its arguments. -/
theorem keyword?_append {keyword : Line} (hne : keyword ≠ [])
    (hk : ∀ c ∈ keyword, isLetter c = true ∧ Blank.isBlank c = false) (text : Line) :
    keyword? (keyword ++ ' ' :: text) = some (keyword.map upperLetter, Blank.strip text) := by
  have hs : Blank.stripLeft (keyword ++ ' ' :: text) = keyword ++ ' ' :: text := by
    refine Blank.dropWhile_eq_self fun c hc => ?_
    rw [List.head?_append_of_ne_nil _ hne] at hc
    exact (hk c (List.mem_of_mem_head? hc)).2
  have ht : (keyword ++ ' ' :: text).takeWhile isLetter = keyword := by
    rw [List.takeWhile_append_of_pos fun c hc => (hk c hc).1,
      List.takeWhile_cons_of_neg (by decide), List.append_nil]
  have hd : (keyword ++ ' ' :: text).dropWhile isLetter = ' ' :: text := by
    rw [List.dropWhile_append_of_pos fun c hc => (hk c hc).1,
      List.dropWhile_cons_of_neg (by decide)]
  have hb : Blank.isBlank ' ' = true := by decide
  have hstrip : Blank.strip (' ' :: text) = Blank.strip text := by
    rw [Blank.strip, Blank.trim_cons_of_pos hb, Blank.strip]
  obtain ⟨c, rest, rfl⟩ := List.exists_cons_of_ne_nil hne
  simp only [keyword?, hs, ht, hd, hb, hstrip, if_true]

end Reader
end ContainerDocs
