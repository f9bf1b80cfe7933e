import ContainerDocs.Dockerfile.Words
import Mathlib.Data.List.Basic

/-!
# Reading back quoted words

A word may be written in pieces: bare text, a character after the escape, text between single
quotes and text between double quotes. Reading a written word gives its text back.

## Main definitions

* `Words.Segment` — one piece of a written word, with its text and its written form.
* `Words.text`, `Words.written` — the text and the written form of a word.

## Main statements

* `Words.split?_written`, `Words.split?_written_cons` — a written word in front is read back.
-/

namespace ContainerDocs
namespace Words

/-! ## Written words -/

inductive Segment where
  | bare (cs : List Char)
  | escaped (c : Char)
  | single (cs : List Char)
  | double (cs : List Char)
deriving DecidableEq, Repr

/-- The text with the escape in front of each double quote and of each escape. -/
def protect (escape : Char) (cs : List Char) : List Char :=
  cs.flatMap fun c => if c = '"' ∨ c = escape then [escape, c] else [c]

namespace Segment

def text : Segment → List Char
  | bare cs | single cs | double cs => cs
  | escaped c => [c]

def written (escape : Char) : Segment → List Char
  | bare cs => cs
  | escaped c => [escape, c]
  | single cs => '\'' :: (cs ++ ['\''])
  | double cs => '"' :: (protect escape cs ++ ['"'])

/-- Whether a piece can be written: bare text is not empty and holds nothing with a meaning, and
there is no single quote between single quotes. -/
def Writable (escape : Char) : Segment → Prop
  | bare cs => cs ≠ [] ∧
    ∀ c ∈ cs, isSeparator c = false ∧ c ≠ '\'' ∧ c ≠ '"' ∧ c ≠ escape
  | single cs => '\'' ∉ cs
  | escaped _ | double _ => True

end Segment

def text (w : List Segment) : List Char := w.flatMap Segment.text

def written (escape : Char) (w : List Segment) : List Char := w.flatMap (Segment.written escape)

/-! ## Single characters -/

section Characters

variable (escape c : Char) (rest : List Char)

theorem read?_between_cons :
    read? escape .between (c :: rest) =
      if isSeparator c then read? escape .between rest
      else if c = escape then (read? escape .escaped rest).map Reading.finish
      else if c = '\'' then (read? escape .single rest).map Reading.finish
      else if c = '"' then (read? escape .double rest).map Reading.finish
      else ((read? escape .bare rest).map (Reading.push c)).map Reading.finish := rfl

theorem read?_bare_cons :
    read? escape .bare (c :: rest) =
      if isSeparator c then (read? escape .between rest).map Reading.start
      else if c = '\'' then read? escape .single rest
      else if c = '"' then read? escape .double rest
      else if c = escape then read? escape .escaped rest
      else (read? escape .bare rest).map (Reading.push c) := rfl

theorem read?_escaped_cons :
    read? escape .escaped (c :: rest) = (read? escape .bare rest).map (Reading.push c) := rfl

theorem read?_single_cons :
    read? escape .single (c :: rest) =
      if c = '\'' then read? escape .bare rest
      else (read? escape .single rest).map (Reading.push c) := rfl

theorem read?_double_cons :
    read? escape .double (c :: rest) =
      if c = '"' then read? escape .bare rest
      else if c = escape then read? escape .doubleEscaped rest
      else (read? escape .double rest).map (Reading.push c) := rfl

theorem read?_doubleEscaped_cons :
    read? escape .doubleEscaped (c :: rest) =
      let after := (read? escape .double rest).map (Reading.push c)
      if c = escape ∨ c = '"' then after else after.map (Reading.push escape) := rfl

end Characters

/-! ## Reading one piece -/

namespace Reading

/-- The reading with a text in front of the word at hand. -/
def prepend (cs : List Char) (r : Reading) : Reading := cs.foldr push r

@[simp] theorem prepend_nil : prepend [] = id := rfl

@[simp] theorem push_comp_prepend (c : Char) (cs : List Char) :
    push c ∘ prepend cs = prepend (c :: cs) := rfl

theorem prepend_append (cs ds : List Char) : prepend (cs ++ ds) = prepend cs ∘ prepend ds := by
  funext r
  exact List.foldr_append

theorem prepend_some (cs w : List Char) (ws : List (List Char)) :
    prepend cs (some w, ws) = (some (cs ++ w), ws) := by
  induction cs with
  | nil => rfl
  | cons c cs ih => rw [← push_comp_prepend, Function.comp_apply, ih]; rfl

end Reading

/-- An escape is neither a quote nor a character between words. -/
structure IsEscape (c : Char) : Prop where
  not_single : c ≠ '\''
  not_double : c ≠ '"'
  not_separator : isSeparator c = false

theorem isEscape_backslash : IsEscape '\\' := by
  refine ⟨?_, ?_, ?_⟩ <;> decide

section Pieces

variable {escape : Char} (rest : List Char)

theorem read?_bare (cs : List Char)
    (h : ∀ c ∈ cs, isSeparator c = false ∧ c ≠ '\'' ∧ c ≠ '"' ∧ c ≠ escape) :
    read? escape .bare (cs ++ rest) = (read? escape .bare rest).map (Reading.prepend cs) := by
  induction cs with
  | nil => simp
  | cons c cs ih =>
    obtain ⟨hs, hq, hd, he⟩ := h c (by simp)
    rw [List.cons_append, read?_bare_cons, ih fun d hd => h d (by simp [hd])]
    simp [hs, hq, hd, he]

theorem read?_single (cs : List Char) (h : '\'' ∉ cs) :
    read? escape .single (cs ++ '\'' :: rest) =
      (read? escape .bare rest).map (Reading.prepend cs) := by
  induction cs with
  | nil => simp [read?_single_cons]
  | cons c cs ih =>
    have hc : c ≠ '\'' := by
      rintro rfl
      simp at h
    rw [List.cons_append, read?_single_cons, ih fun hm => h (by simp [hm])]
    simp [hc]

theorem read?_double (he : IsEscape escape) (cs : List Char) :
    read? escape .double (protect escape cs ++ '"' :: rest) =
      (read? escape .bare rest).map (Reading.prepend cs) := by
  induction cs with
  | nil => simp [protect, read?_double_cons]
  | cons c cs ih =>
    have hp : protect escape (c :: cs) =
        (if c = '"' ∨ c = escape then [escape, c] else [c]) ++ protect escape cs := rfl
    rw [hp, List.append_assoc]
    by_cases hc : c = '"' ∨ c = escape
    · -- The escape in front takes the meaning from the character.
      have hce : c = escape ∨ c = '"' := hc.symm
      simp [hc, read?_double_cons, read?_doubleEscaped_cons, he.not_double, hce, ih]
    · obtain ⟨hd, hn⟩ := not_or.1 hc
      simp [hd, hn, read?_double_cons, ih]

/-- A piece at a place in a word adds its text. -/
theorem read?_segment (he : IsEscape escape) (s : Segment) (h : s.Writable escape) :
    read? escape .bare (s.written escape ++ rest) =
      (read? escape .bare rest).map (Reading.prepend s.text) := by
  cases s with
  | bare cs => exact read?_bare rest cs h.2
  | escaped c =>
    simp [Segment.written, Segment.text, read?_bare_cons, read?_escaped_cons, he.not_single,
      he.not_double, he.not_separator, ← Reading.push_comp_prepend]
  | single cs =>
    simpa [Segment.written, Segment.text, read?_bare_cons, isSeparator] using
      read?_single rest cs h
  | double cs =>
    simpa [Segment.written, Segment.text, read?_bare_cons, isSeparator] using
      read?_double rest he cs

end Pieces

/-! ## Reading words -/

section Reading

variable {escape c : Char} {w : List Segment} (rest : List Char)

/-- The pieces of a word follow each other. -/
theorem read?_pieces (he : IsEscape escape) (h : ∀ s ∈ w, s.Writable escape) :
    read? escape .bare (written escape w ++ rest) =
      (read? escape .bare rest).map (Reading.prepend (text w)) := by
  induction w with
  | nil => simp [written, text]
  | cons s w ih =>
    have hw : written escape (s :: w) = s.written escape ++ written escape w := rfl
    have ht : text (s :: w) = s.text ++ text w := rfl
    rw [hw, ht, List.append_assoc, read?_segment _ he s (h s (by simp)),
      ih fun t ht => h t (by simp [ht]), Option.map_map, Reading.prepend_append]

/-- A word starts with a character that does not separate words. -/
theorem written_eq_cons (he : IsEscape escape) (hne : w ≠ []) (h : ∀ s ∈ w, s.Writable escape) :
    ∃ d more, written escape w = d :: more ∧ isSeparator d = false := by
  obtain ⟨s, w, rfl⟩ := List.exists_cons_of_ne_nil hne
  have hs := h s (by simp)
  cases s with
  | bare cs =>
    obtain ⟨d, cs, rfl⟩ := List.exists_cons_of_ne_nil hs.1
    exact ⟨d, _, rfl, (hs.2 d (by simp)).1⟩
  | escaped d => exact ⟨escape, _, rfl, he.not_separator⟩
  | single cs => exact ⟨'\'', _, rfl, by decide⟩
  | double cs => exact ⟨'"', _, rfl, by decide⟩

/-- Between words, the next word is read as if the reader stood in it. -/
theorem read?_between (he : IsEscape escape) (hc : isSeparator c = false) :
    read? escape .between (c :: rest) =
      (read? escape .bare (c :: rest)).map Reading.finish := by
  rw [read?_between_cons, read?_bare_cons]
  by_cases h : c = escape
  · simp [h, he.not_single, he.not_double, he.not_separator]
  · simp only [hc, h]
    grind

/-- Between words there is no word at hand. -/
theorem read?_between_fst {cs : List Char} {r : Reading} (h : read? escape .between cs = some r) :
    r.1 = none := by
  have hf : ∀ q : Reading, q.finish.1 = none := by
    rintro ⟨_ | _, _⟩ <;> rfl
  induction cs with
  | nil => cases h; rfl
  | cons c cs ih =>
    rw [read?_between_cons] at h
    split_ifs at h
    · exact ih h
    all_goals
      obtain ⟨q, -, rfl⟩ := Option.map_eq_some_iff.1 h
      exact hf q

/-- A written word is read back. -/
theorem split?_written (he : IsEscape escape) (hne : w ≠ []) (h : ∀ s ∈ w, s.Writable escape) :
    split? escape (written escape w) = some [text w] := by
  obtain ⟨d, more, hd, hs⟩ := written_eq_cons he hne h
  have hp := read?_pieces [] he h
  rw [List.append_nil, hd] at hp
  have hnil : read? escape .bare [] = some (some [], []) := rfl
  rw [split?, hd, read?_between _ he hs, hp, hnil]
  simp [Reading.prepend_some, Reading.finish]

/-- A written word in front of a separator is read back, and the words after it follow. -/
theorem split?_written_cons (he : IsEscape escape) (hne : w ≠ [])
    (h : ∀ s ∈ w, s.Writable escape) (hc : isSeparator c = true) :
    split? escape (written escape w ++ c :: rest) = (split? escape rest).map (text w :: ·) := by
  obtain ⟨d, more, hd, hs⟩ := written_eq_cons he hne h
  have hp := read?_pieces (c :: rest) he h
  rw [hd, List.cons_append] at hp
  rw [split?, hd, List.cons_append, read?_between _ he hs, hp, read?_bare_cons, if_pos hc,
    split?]
  cases hr : read? escape .between rest with
  | none => rfl
  | some r =>
    obtain ⟨first, ws⟩ := r
    obtain rfl : first = none := read?_between_fst hr
    simp [Reading.start, Reading.prepend_some, Reading.finish]

/-- Written words joined by a separator are read back. -/
theorem split?_intercalate (he : IsEscape escape) (hc : isSeparator c = true)
    (ws : List (List Segment)) (h : ∀ w ∈ ws, w ≠ [] ∧ ∀ s ∈ w, s.Writable escape) :
    split? escape (List.intercalate [c] (ws.map (written escape))) = some (ws.map text) := by
  induction ws with
  | nil => rfl
  | cons w ws ih =>
    obtain ⟨hne, hw⟩ := h w (by simp)
    cases ws with
    | nil => simpa [List.intercalate_singleton] using split?_written he hne hw
    | cons v ws =>
      have hi := ih fun u hu => h u (by simp [hu])
      rw [List.map_cons, List.map_cons] at hi ⊢
      rw [List.intercalate_cons_cons, List.append_assoc, List.singleton_append,
        split?_written_cons _ he hne hw hc, hi]
      rfl

end Reading

end Words
end ContainerDocs
