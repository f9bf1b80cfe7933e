import ContainerDocs.Proofs.Dockerfile.Escape
import ContainerDocs.Proofs.Dockerfile.Words

/-!
# Splitting undoes quoting

Words that are written in any of the ways that quotes and escapes offer, with separators between
them, are read back. What cannot be read is a text in which a quote or an escape is left open, and
its words are the runs of characters that are not blank.

## Main definitions

* `Words.IsWord` — pieces that make up a word.
* `Words.Lays` — a text is a list of words with separators between them.
* `Words.Guarded` — a text in which each escape takes the next character along.
* `Words.Closed`, `Words.LeavesOpen` — texts after which nothing is open, and texts that open
  a quote or an escape at their start and do not close it.

## Main statements

* `Words.split?_of_lays` — words are read back.
* `Words.split?_eq_none_iff` — reading fails exactly where something is left open.
* `Words.split_undoes_quoting` — both together.
-/

namespace ContainerDocs
namespace Words

/-! ## Texts made of words -/

/-- Whether a piece may be part of a word: bare text, which may be empty, holds nothing with a
meaning, and there is no single quote between single quotes. -/
def Segment.IsAllowed (escape : Char) : Segment → Prop
  | bare cs => ∀ c ∈ cs, isSeparator c = false ∧ c ≠ '\'' ∧ c ≠ '"' ∧ c ≠ escape
  | single cs => '\'' ∉ cs
  | escaped _ | double _ => True

/-- Pieces that make up a word, whose written form is not empty. Its text may be. -/
structure IsWord (escape : Char) (w : List Segment) : Prop where
  written_ne_nil : written escape w ≠ []
  allowed : ∀ s ∈ w, s.IsAllowed escape

/-- A text holds words in their written forms, with one or more separators between any two of them
and any number of separators around them. -/
inductive Lays (escape : Char) : List (List Segment) → List Char → Prop
  | nothing : Lays escape [] []
  | separator {ws : List (List Segment)} {c : Char} {rest : List Char}
      (hc : isSeparator c = true) (h : Lays escape ws rest) : Lays escape ws (c :: rest)
  | last {w : List Segment} (hw : IsWord escape w) : Lays escape [w] (written escape w)
  | word {w : List Segment} {ws : List (List Segment)} {c : Char} {rest : List Char}
      (hw : IsWord escape w) (hc : isSeparator c = true) (h : Lays escape ws rest) :
      Lays escape (w :: ws) (written escape w ++ c :: rest)

variable {escape : Char}

theorem isEscape_of_isEscapeChar (h : Reader.IsEscapeChar escape) : IsEscape escape := by
  obtain rfl | h := h
  · exact isEscape_backslash
  · have hne : ∀ c : Char, c.toNat ≠ 96 → escape ≠ c := by
      rintro c hc rfl
      exact hc h
    refine ⟨hne _ (by decide), hne _ (by decide), ?_⟩
    simp [isSeparator, hne ' ' (by decide), hne '\t' (by decide), hne '\r' (by decide),
      hne '\n' (by decide)]

/-- Empty bare text can be left out. -/
theorem exists_writable {w : List Segment} (h : ∀ s ∈ w, s.IsAllowed escape) :
    ∃ v : List Segment, (∀ s ∈ v, s.Writable escape) ∧ written escape v = written escape w ∧
      text v = text w := by
  induction w with
  | nil => exact ⟨[], by simp, rfl, rfl⟩
  | cons s w ih =>
    obtain ⟨v, hv, hwritten, htext⟩ := ih fun t ht => h t (by simp [ht])
    have hs := h s (by simp)
    by_cases hempty : s = .bare []
    · subst hempty
      exact ⟨v, hv, hwritten, htext⟩
    · refine ⟨s :: v, List.forall_mem_cons.2 ⟨?_, hv⟩, ?_, ?_⟩
      · cases s with
        | bare cs => exact ⟨fun hcs => hempty (hcs ▸ rfl), hs⟩
        | escaped _ | double _ => trivial
        | single cs => exact hs
      · simpa [written] using hwritten
      · simpa [text] using htext

theorem IsWord.exists_writable {w : List Segment} (h : IsWord escape w) :
    ∃ v : List Segment, v ≠ [] ∧ (∀ s ∈ v, s.Writable escape) ∧
      written escape v = written escape w ∧ text v = text w := by
  obtain ⟨v, hv, hwritten, htext⟩ := Words.exists_writable h.allowed
  refine ⟨v, ?_, hv, hwritten, htext⟩
  rintro rfl
  exact h.written_ne_nil hwritten.symm

theorem split?_separator {c : Char} (hc : isSeparator c = true) (rest : List Char) :
    split? escape (c :: rest) = split? escape rest := by
  rw [split?, split?, read?_between_cons, if_pos hc]

/-- The words of a text are read back. -/
theorem split?_of_lays (he : IsEscape escape) {ws : List (List Segment)} {cs : List Char}
    (h : Lays escape ws cs) : split? escape cs = some (ws.map text) := by
  induction h with
  | nothing => rfl
  | separator hc _ ih => rw [split?_separator hc, ih]
  | last hw =>
    obtain ⟨v, hne, hv, hwritten, htext⟩ := hw.exists_writable
    rw [← hwritten, split?_written he hne hv, htext]
    rfl
  | word hw hc _ ih =>
    obtain ⟨v, hne, hv, hwritten, htext⟩ := hw.exists_writable
    rw [← hwritten, split?_written_cons _ he hne hv hc, ih, htext]
    rfl

/-! ## What is left open -/

/-- A text, as it may stand between double quotes, in which each escape takes the next character
along and no other double quote occurs. -/
inductive Guarded (escape : Char) : List Char → Prop
  | nil : Guarded escape []
  | plain {c : Char} {rest : List Char} (hquote : c ≠ '"') (hescape : c ≠ escape)
      (h : Guarded escape rest) : Guarded escape (c :: rest)
  | escaped (c : Char) {rest : List Char} (h : Guarded escape rest) :
      Guarded escape (escape :: c :: rest)

inductive Closed (escape : Char) : List Char → Prop
  | nil : Closed escape []
  | plain {c : Char} {rest : List Char} (hsingle : c ≠ '\'') (hdouble : c ≠ '"')
      (hescape : c ≠ escape) (h : Closed escape rest) : Closed escape (c :: rest)
  | escaped (c : Char) {rest : List Char} (h : Closed escape rest) :
      Closed escape (escape :: c :: rest)
  | single {cs rest : List Char} (hcs : '\'' ∉ cs) (h : Closed escape rest) :
      Closed escape ('\'' :: (cs ++ '\'' :: rest))
  | double {cs rest : List Char} (hcs : Guarded escape cs) (h : Closed escape rest) :
      Closed escape ('"' :: (cs ++ '"' :: rest))

/-- A text that opens a quote or an escape with its first character and ends before that is closed.
Between double quotes an escape may be left open as well. -/
inductive LeavesOpen (escape : Char) : List Char → Prop
  | escaped : LeavesOpen escape [escape]
  | single {cs : List Char} (hcs : '\'' ∉ cs) : LeavesOpen escape ('\'' :: cs)
  | double {cs : List Char} (hcs : Guarded escape cs) : LeavesOpen escape ('"' :: cs)
  | doubleEscaped {cs : List Char} (hcs : Guarded escape cs) :
      LeavesOpen escape ('"' :: (cs ++ [escape]))

/-! ## Reading up to what is left open -/

section Open

variable {c : Char} {cs rest : List Char}

/-- Whether there is a reading does not depend on whether a word has begun. -/
theorem read?_between_eq_none_iff (he : IsEscape escape) :
    read? escape .between cs = none ↔ read? escape .bare cs = none := by
  cases cs with
  | nil => exact iff_of_false (by rintro ⟨⟩) (by rintro ⟨⟩)
  | cons c rest =>
    by_cases hc : isSeparator c = true
    · rw [read?_between_cons, read?_bare_cons, if_pos hc, if_pos hc, Option.map_eq_none_iff]
    · rw [read?_between rest he (by simpa using hc), Option.map_eq_none_iff]

theorem read?_plain_eq_none_iff (he : IsEscape escape) (hsingle : c ≠ '\'') (hdouble : c ≠ '"')
    (hescape : c ≠ escape) :
    read? escape .bare (c :: rest) = none ↔ read? escape .bare rest = none := by
  rw [read?_bare_cons, if_neg hsingle, if_neg hdouble, if_neg hescape]
  split_ifs
  · rw [Option.map_eq_none_iff, read?_between_eq_none_iff he]
  · rw [Option.map_eq_none_iff]

theorem read?_bare_escape (he : IsEscape escape) :
    read? escape .bare (escape :: rest) = read? escape .escaped rest := by
  simp [read?_bare_cons, he.not_separator, he.not_single, he.not_double]

theorem read?_escape_eq_none_iff (he : IsEscape escape) :
    read? escape .bare (escape :: c :: rest) = none ↔ read? escape .bare rest = none := by
  rw [read?_bare_escape he, read?_escaped_cons, Option.map_eq_none_iff]

theorem read?_bare_single : read? escape .bare ('\'' :: rest) = read? escape .single rest := by
  simp [read?_bare_cons, isSeparator]

theorem read?_bare_double : read? escape .bare ('"' :: rest) = read? escape .double rest := by
  simp [read?_bare_cons, isSeparator]

/-- A guarded text leaves the reader between double quotes. -/
theorem read?_guarded_eq_none_iff (he : IsEscape escape) (h : Guarded escape cs) :
    read? escape .double (cs ++ rest) = none ↔ read? escape .double rest = none := by
  induction h with
  | nil => rfl
  | plain hquote hescape _ ih => simp [read?_double_cons, hquote, hescape, ih]
  | escaped c _ ih =>
    simp only [List.cons_append, read?_double_cons, if_neg he.not_double, if_true,
      read?_doubleEscaped_cons]
    split_ifs <;> simp [ih]

/-- A text in which everything is closed changes nothing. -/
theorem read?_closed_eq_none_iff (he : IsEscape escape) (h : Closed escape cs) :
    read? escape .bare (cs ++ rest) = none ↔ read? escape .bare rest = none := by
  induction h with
  | nil => rfl
  | plain hsingle hdouble hescape _ ih =>
    rw [List.cons_append, read?_plain_eq_none_iff he hsingle hdouble hescape, ih]
  | escaped c _ ih => rw [List.cons_append, List.cons_append, read?_escape_eq_none_iff he, ih]
  | single hcs _ ih =>
    rw [List.cons_append, List.append_assoc, List.cons_append, read?_bare_single,
      read?_single _ _ hcs, Option.map_eq_none_iff, ih]
  | double hcs _ ih =>
    rw [List.cons_append, List.append_assoc, List.cons_append, read?_bare_double,
      read?_guarded_eq_none_iff he hcs, read?_double_cons, if_pos rfl, ih]

theorem read?_single_of_not_mem (h : '\'' ∉ cs) : read? escape .single cs = none := by
  induction cs with
  | nil => rfl
  | cons c cs ih =>
    rw [List.mem_cons, not_or] at h
    rw [read?_single_cons, if_neg (Ne.symm h.1), ih h.2]
    rfl

/-- A text that is left open is not read. -/
theorem read?_of_leavesOpen (he : IsEscape escape) (h : LeavesOpen escape cs) :
    read? escape .bare cs = none := by
  cases h with
  | escaped => exact read?_bare_escape he
  | single hcs => rw [read?_bare_single, read?_single_of_not_mem hcs]
  | @double cs hcs =>
    have hend : read? escape .double (cs ++ []) = none := (read?_guarded_eq_none_iff he hcs).2 rfl
    rwa [List.append_nil, ← read?_bare_double] at hend
  | doubleEscaped hcs =>
    rw [read?_bare_double, read?_guarded_eq_none_iff he hcs, read?_double_cons,
      if_neg he.not_double, if_pos rfl]
    rfl

/-! ## Where reading fails -/

/-- Behind a double quote a guarded text ends the whole text, or an escape behind it does, or the
closing quote follows. -/
theorem guarded_cases (escape : Char) (cs : List Char) :
    Guarded escape cs ∨ (∃ inner, Guarded escape inner ∧ cs = inner ++ [escape]) ∨
      ∃ inner rest, Guarded escape inner ∧ cs = inner ++ '"' :: rest := by
  induction hn : cs.length using Nat.strong_induction_on generalizing cs with
  | _ n ih =>
    -- What stands in front of a shorter text can be put in front of each of its three forms.
    have extend : ∀ front more : List Char, more.length < n →
        (∀ inner, Guarded escape inner → Guarded escape (front ++ inner)) →
        Guarded escape (front ++ more) ∨
          (∃ inner, Guarded escape inner ∧ front ++ more = inner ++ [escape]) ∨
          ∃ inner rest, Guarded escape inner ∧ front ++ more = inner ++ '"' :: rest := by
      intro front more hlength hfront
      obtain h | ⟨inner, h, rfl⟩ | ⟨inner, rest, h, rfl⟩ := ih _ hlength more rfl
      · exact .inl (hfront _ h)
      · exact .inr (.inl ⟨front ++ inner, hfront _ h, by simp⟩)
      · exact .inr (.inr ⟨front ++ inner, rest, hfront _ h, by simp⟩)
    cases cs with
    | nil => exact .inl .nil
    | cons c rest =>
      rw [List.length_cons] at hn
      by_cases hquote : c = '"'
      · exact .inr (.inr ⟨[], rest, .nil, by rw [hquote]; rfl⟩)
      by_cases hescape : c = escape
      · subst hescape
        cases rest with
        | nil => exact .inr (.inl ⟨[], .nil, rfl⟩)
        | cons d more =>
          rw [List.length_cons] at hn
          exact extend [c, d] more (by omega) fun _ h => .escaped d h
      · exact extend [c] rest (by omega) fun _ h => .plain hquote hescape h

/-- A text that is not read has a place from which on something is open. -/
theorem exists_leavesOpen (he : IsEscape escape) (h : read? escape .bare cs = none) :
    ∃ before rest, cs = before ++ rest ∧ Closed escape before ∧ LeavesOpen escape rest := by
  induction hn : cs.length using Nat.strong_induction_on generalizing cs with
  | _ n ih =>
    have extend : ∀ front more : List Char, more.length < n → read? escape .bare more = none →
        (∀ before, Closed escape before → Closed escape (front ++ before)) →
        ∃ before rest, front ++ more = before ++ rest ∧ Closed escape before ∧
          LeavesOpen escape rest := by
      intro front more hlength hmore hfront
      obtain ⟨before, rest, rfl, hbefore, hrest⟩ := ih _ hlength hmore rfl
      exact ⟨front ++ before, rest, by simp, hfront _ hbefore, hrest⟩
    cases cs with
    | nil => cases h
    | cons c rest =>
      rw [List.length_cons] at hn
      by_cases hsingle : c = '\''
      · subst hsingle
        by_cases hclosed : '\'' ∈ rest
        · obtain ⟨inner, more, rfl, hinner⟩ := List.eq_append_cons_of_mem hclosed
          rw [read?_bare_single, read?_single _ _ hinner, Option.map_eq_none_iff] at h
          have hfront : ∀ before, Closed escape before →
              Closed escape (('\'' :: (inner ++ ['\''])) ++ before) := by
            intro before hbefore
            simpa using Closed.single hinner hbefore
          simpa using extend ('\'' :: (inner ++ ['\''])) more (by simp at hn; omega) h hfront
        · exact ⟨[], _, rfl, .nil, .single hclosed⟩
      by_cases hdouble : c = '"'
      · subst hdouble
        obtain hall | ⟨inner, hinner, rfl⟩ | ⟨inner, more, hinner, rfl⟩ :=
          guarded_cases escape rest
        · exact ⟨[], _, rfl, .nil, .double hall⟩
        · exact ⟨[], _, rfl, .nil, .doubleEscaped hinner⟩
        · rw [read?_bare_double, read?_guarded_eq_none_iff he hinner, read?_double_cons,
            if_pos rfl] at h
          have hfront : ∀ before, Closed escape before →
              Closed escape (('"' :: (inner ++ ['"'])) ++ before) := by
            intro before hbefore
            simpa using Closed.double hinner hbefore
          simpa using extend ('"' :: (inner ++ ['"'])) more (by simp at hn; omega) h hfront
      by_cases hescape : c = escape
      · subst hescape
        cases rest with
        | nil => exact ⟨[], _, rfl, .nil, .escaped⟩
        | cons d more =>
          rw [List.length_cons] at hn
          exact extend [c, d] more (by omega) ((read?_escape_eq_none_iff he).1 h)
            fun _ hbefore => .escaped d hbefore
      · exact extend [c] rest (by omega)
          ((read?_plain_eq_none_iff he hsingle hdouble hescape).1 h)
          fun _ hbefore => .plain hsingle hdouble hescape hbefore

/-- Reading fails exactly on the texts that leave something open behind what is closed. -/
theorem split?_eq_none_iff (he : IsEscape escape) : split? escape cs = none ↔
    ∃ before rest, cs = before ++ rest ∧ Closed escape before ∧ LeavesOpen escape rest := by
  rw [split?, Option.map_eq_none_iff, read?_between_eq_none_iff he]
  constructor
  · exact exists_leavesOpen he
  · rintro ⟨before, rest, rfl, hbefore, hrest⟩
    rw [read?_closed_eq_none_iff he hbefore]
    exact read?_of_leavesOpen he hrest

end Open

/-! ## Splitting -/

/-- Splitting a text into words undoes their quoting, whichever way each of them is written. A text
in which a quote or an escape is left open, and no other, is split at its blanks. -/
theorem split_undoes_quoting (h : Reader.IsEscapeChar escape) :
    (∀ (ws : List (List Segment)) (cs : List Char), Lays escape ws cs →
      split escape cs = ws.map text) ∧
    (∀ before rest : List Char, Closed escape before → LeavesOpen escape rest →
      split escape (before ++ rest) = Blank.words (before ++ rest)) ∧
    ∀ cs : List Char, split? escape cs = none ↔
      ∃ before rest, cs = before ++ rest ∧ Closed escape before ∧ LeavesOpen escape rest := by
  have he := isEscape_of_isEscapeChar h
  refine ⟨fun ws cs hlays => ?_, fun before rest hbefore hrest => ?_,
    fun cs => split?_eq_none_iff he⟩
  · rw [split, split?_of_lays he hlays, Option.getD_some]
  · rw [split, (split?_eq_none_iff he).2 ⟨before, rest, rfl, hbefore, hrest⟩, Option.getD_none]

/-- A word in all styles beside an empty one, and a quoted text that ends with an escape. -/
theorem split_undoes_quoting_of_styles :
    let w : List Segment :=
      [.bare ['a', '='], .escaped ' ', .single ['b', '\\'], .double ['"', '\n']]
    let cs := " a=\\ 'b\\'\"\\\"\n\"\t\r\"\" ".toList
    let closed := "a='\"' ".toList
    let rest := "\"b c\\".toList
    Reader.IsEscapeChar '\\' ∧ Lays '\\' [w, [.double []]] cs ∧
      split '\\' cs = ["a= b\\\"\n".toList, []] ∧
      Closed '\\' closed ∧ LeavesOpen '\\' rest ∧
      split '\\' (closed ++ rest) = ["a='\"'".toList, "\"b".toList, "c\\".toList] := by
  intro w cs closed rest
  have hescape : Reader.IsEscapeChar '\\' := .inl rfl
  have hw : IsWord '\\' w := ⟨by decide, by simp [w, Segment.IsAllowed, isSeparator]⟩
  have hempty : IsWord '\\' [.double []] := ⟨by decide, by simp [Segment.IsAllowed]⟩
  have hlays : Lays '\\' [w, [.double []]] cs := by
    have hcs : cs = ' ' :: (written '\\' w ++ '\t' :: '\r' ::
      (written '\\' [.double []] ++ ' ' :: [])) := by decide
    rw [hcs]
    exact .separator rfl (.word hw rfl (.separator rfl (.word hempty rfl .nothing)))
  have hclosed : Closed '\\' closed := by
    have hcs : closed = 'a' :: '=' :: '\'' :: (['"'] ++ '\'' :: ' ' :: []) := by decide
    rw [hcs]
    exact .plain (by decide) (by decide) (by decide) (.plain (by decide) (by decide) (by decide)
      (.single (by decide) (.plain (by decide) (by decide) (by decide) .nil)))
  have hrest : LeavesOpen '\\' rest := by
    have hcs : rest = '"' :: (['b', ' ', 'c'] ++ ['\\']) := by decide
    rw [hcs]
    exact .doubleEscaped (.plain (by decide) (by decide) (.plain (by decide) (by decide)
      (.plain (by decide) (by decide) .nil)))
  obtain ⟨hread, hopen, -⟩ := split_undoes_quoting hescape
  refine ⟨hescape, hlays, ?_, hclosed, hrest, ?_⟩
  · rw [hread _ _ hlays]
    decide
  · rw [hopen _ _ hclosed hrest]
    decide

end Words
end ContainerDocs
