import ContainerDocs.Proofs.Dockerfile.Reader

/-!
# Openers of here-documents

A here-document is opened by `<<`, an optional dash, blanks, an optional quote and its name. The
search for the first opener knows nothing of quotes, and is not disturbed by a text without `<<` in
front of it or by a text behind it that no opener can run into.

## Main definitions

* `Reader.IsName` — the names of here-documents.
* `Reader.Opens` — what may follow `<<` in an opener.
* `Reader.HasOpener` — the texts that hold an opener.
* `Reader.Closes` — the texts that no opener can run into.

## Main statements

* `Reader.openerName?_eq_some_iff` — the reader finds the openers and their names.
* `Reader.hasOpener_iff` — the search finds something exactly in texts that hold an opener.
* `Reader.hereDocument?_append_left`, `Reader.hereDocument?_append_right` — what does not disturb
  the search.
-/

namespace ContainerDocs
namespace Reader

/-! ## Names -/

def isNameChar (c : Char) : Bool := isLetterOrDigit c || c == '_'

structure IsName (name : Line) : Prop where
  head : ∃ c ∈ name.head?, startsName c = true
  chars : ∀ c ∈ name, isNameChar c = true

theorem isNameChar_of_startsName {c : Char} (h : startsName c = true) : isNameChar c = true := by
  revert h
  simp only [startsName, isNameChar, isLetterOrDigit, Bool.or_eq_true]
  tauto

theorem isNameChar_iff {c : Char} : isNameChar c = true ↔
    97 ≤ c.toNat ∧ c.toNat ≤ 122 ∨ 65 ≤ c.toNat ∧ c.toNat ≤ 90 ∨ 48 ≤ c.toNat ∧ c.toNat ≤ 57 ∨
      c.toNat = 95 := by
  have hle : ∀ d e : Char, d ≤ e ↔ d.toNat ≤ e.toNat := fun _ _ => Iff.rfl
  have heq : c = '_' ↔ c.toNat = 95 := by
    rw [← Char.toNat_inj]
    rfl
  simp only [isNameChar, isLetterOrDigit, isLetter, Bool.or_eq_true, Bool.and_eq_true,
    decide_eq_true_eq, beq_iff_eq, hle, heq, or_assoc]
  rfl

theorem isBlank_of_isNameChar {c : Char} (h : isNameChar c = true) : Blank.isBlank c = false := by
  rw [isNameChar_iff] at h
  simp only [Blank.isBlank, Blank.isBlankCode, Bool.or_eq_false_iff, Bool.and_eq_false_iff,
    decide_eq_false_iff_not, beq_eq_false_iff_ne]
  omega

namespace IsName

variable {name : Line}

theorem ne_nil (h : IsName name) : name ≠ [] := by
  rintro rfl
  simpa using h.head

theorem not_blank (h : IsName name) : ∀ c ∈ name, Blank.isBlank c = false :=
  fun c hc => isBlank_of_isNameChar (h.chars c hc)

end IsName

/-! ## Openers -/

def isQuote (c : Char) : Bool := c == '"' || c == '\''

def dropOne (p : Char → Bool) : Line → Line
  | [] => []
  | c :: rest => if p c then rest else c :: rest

def leadingName? (cs : Line) : Option Line :=
  if cs.head?.any startsName then some (cs.takeWhile isNameChar) else none

theorem isQuote_iff {c : Char} : isQuote c = true ↔ c = '"' ∨ c = '\'' := by simp [isQuote]

theorem not_isQuote_of_isNameChar {c : Char} (h : isNameChar c = true) : isQuote c = false := by
  by_contra hq
  obtain rfl | rfl := isQuote_iff.1 (by simpa using hq) <;> exact absurd h (by decide)

theorem isBlank_of_isQuote {c : Char} (h : isQuote c = true) :
    Blank.isBlank c = false ∧ c ≠ '-' := by
  obtain rfl | rfl := isQuote_iff.1 h <;> decide

theorem ne_of_isNameChar {c d : Char} (h : isNameChar c = true) (hd : isNameChar d = false) :
    c ≠ d := by
  rintro rfl
  simp [h] at hd

theorem ne_of_isBlank {c d : Char} (h : Blank.isBlank c = true) (hd : Blank.isBlank d = false) :
    c ≠ d := by
  rintro rfl
  simp [h] at hd

theorem openerName?_eq (cs : Line) :
    openerName? cs =
      leadingName? (dropOne isQuote (Blank.stripLeft (dropOne (· == '-') cs))) := by
  unfold openerName?
  extract_lets afterDash afterBlanks afterQuote
  have hdash : afterDash = dropOne (· == '-') cs := by cases cs <;> simp [afterDash, dropOne]
  have hquote : afterQuote = dropOne isQuote afterBlanks := by
    cases hb : afterBlanks <;> simp [afterQuote, hb, dropOne, isQuote]
  rw [← hdash, show Blank.stripLeft afterDash = afterBlanks from rfl, ← hquote]
  cases hq : afterQuote with
  | nil => rfl
  | cons c rest =>
    simp only [leadingName?, List.head?_cons, Option.any_some]
    rfl

theorem dropOne_append_left {p : Char → Bool} {front rest : Line}
    (hf : front = [] ∨ ∃ c, front = [c] ∧ p c = true) (hr : ∀ c ∈ rest.head?, p c = false) :
    dropOne p (front ++ rest) = rest := by
  obtain rfl | ⟨c, rfl, hc⟩ := hf
  · cases rest with
    | nil => rfl
    | cons d rest => simp [dropOne, hr d rfl]
  · simp [dropOne, hc]

theorem dropOne_append_of_ne_nil {p : Char → Bool} {cs : Line} (h : cs ≠ []) (rest : Line) :
    dropOne p (cs ++ rest) = dropOne p cs ++ rest := by
  obtain ⟨c, cs, rfl⟩ := List.exists_cons_of_ne_nil h
  by_cases hc : p c = true <;> simp [dropOne, hc]

theorem exists_dropOne (p : Char → Bool) (cs : Line) :
    ∃ front, (front = [] ∨ ∃ c, front = [c] ∧ p c = true) ∧ cs = front ++ dropOne p cs := by
  cases cs with
  | nil => exact ⟨[], .inl rfl, rfl⟩
  | cons c rest =>
    by_cases hc : p c = true
    · exact ⟨[c], .inr ⟨c, rfl, hc⟩, by simp [dropOne, hc]⟩
    · exact ⟨[], .inl rfl, by simp [dropOne, hc]⟩

/-- What may follow `<<` in an opener of a here-document: an optional dash, blanks, an optional
quote and the name. -/
def Opens (cs name : Line) : Prop :=
  ∃ dash gap quote rest : Line,
    (dash = [] ∨ ∃ c, dash = [c] ∧ (c == '-') = true) ∧
    (∀ c ∈ gap, Blank.isBlank c = true) ∧
    (quote = [] ∨ ∃ c, quote = [c] ∧ isQuote c = true) ∧
    IsName name ∧
    (∀ c ∈ rest.head?, isNameChar c = false) ∧
    cs = dash ++ (gap ++ (quote ++ (name ++ rest)))

theorem leadingName?_eq_some_iff {cs name : Line} :
    leadingName? cs = some name ↔
      ∃ rest, IsName name ∧ (∀ c ∈ rest.head?, isNameChar c = false) ∧ cs = name ++ rest := by
  constructor
  · intro h
    rw [leadingName?] at h
    split_ifs at h with hs
    obtain rfl := Option.some_inj.1 h
    obtain ⟨c, hc, hstart⟩ := (Option.any_eq_true _ _).1 hs
    obtain ⟨more, rfl⟩ := List.head?_eq_some_iff.1 hc
    have hname : (c :: more).takeWhile isNameChar = c :: more.takeWhile isNameChar :=
      List.takeWhile_cons_of_pos (isNameChar_of_startsName hstart)
    refine ⟨(c :: more).dropWhile isNameChar, ⟨⟨c, by rw [hname]; rfl, hstart⟩, ?_⟩,
      Blank.not_head?_dropWhile, List.takeWhile_append_dropWhile.symm⟩
    exact fun d hd => List.mem_takeWhile_imp hd
  · rintro ⟨rest, hn, hr, rfl⟩
    obtain ⟨c, hc, hs⟩ := hn.head
    have hhead : (name ++ rest).head? = some c := by
      rw [List.head?_append_of_ne_nil _ hn.ne_nil, hc]
    have hrest : rest.takeWhile isNameChar = [] := by
      cases rest with
      | nil => rfl
      | cons d rest => exact List.takeWhile_cons_of_neg (by simp [hr d rfl])
    rw [leadingName?, hhead, if_pos (by simpa using hs), List.takeWhile_append_of_pos hn.chars,
      hrest, List.append_nil]

/-- The reader finds the openers and their names. -/
theorem openerName?_eq_some_iff {cs name : Line} : openerName? cs = some name ↔ Opens cs name := by
  rw [openerName?_eq, leadingName?_eq_some_iff]
  constructor
  · rintro ⟨rest, hn, hr, h⟩
    obtain ⟨dash, hd, hcs⟩ := exists_dropOne (· == '-') cs
    obtain ⟨quote, hq, hb⟩ := exists_dropOne isQuote (Blank.stripLeft (dropOne (· == '-') cs))
    refine ⟨dash, (dropOne (· == '-') cs).takeWhile Blank.isBlank, quote, rest, hd,
      fun c hc => List.mem_takeWhile_imp hc, hq, hn, hr, ?_⟩
    rw [← h, ← hb, Blank.stripLeft, List.takeWhile_append_dropWhile]
    exact hcs
  · rintro ⟨dash, gap, quote, rest, hd, hg, hq, hn, hr, rfl⟩
    refine ⟨rest, hn, hr, ?_⟩
    obtain ⟨c, more, rfl⟩ := List.exists_cons_of_ne_nil hn.ne_nil
    have hc : isNameChar c = true := hn.chars c List.mem_cons_self
    have hname : ∀ d ∈ (c :: more ++ rest).head?, isQuote d = false := by
      simpa using not_isQuote_of_isNameChar hc
    have hquote : ∀ d ∈ (quote ++ (c :: more ++ rest)).head?,
        Blank.isBlank d = false ∧ (d == '-') = false := by
      obtain rfl | ⟨q, rfl, hq⟩ := hq
      · simpa using ⟨isBlank_of_isNameChar hc, ne_of_isNameChar hc (by decide)⟩
      · simpa using isBlank_of_isQuote hq
    have hgap : ∀ d ∈ (gap ++ (quote ++ (c :: more ++ rest))).head?, (d == '-') = false := by
      cases gap with
      | nil => exact fun d hd => (hquote d hd).2
      | cons g gap =>
        rw [List.forall_mem_cons] at hg
        simpa using ne_of_isBlank hg.1 (by decide)
    rw [dropOne_append_left hd hgap, Blank.stripLeft, List.dropWhile_append_of_pos hg,
      Blank.dropWhile_eq_self fun d hd => (hquote d hd).1,
      dropOne_append_left hq hname]

/-! ## Searching -/

/-- The texts that hold an opener of a here-document. -/
def HasOpener (cs : Line) : Prop :=
  ∃ front back name, cs = front ++ '<' :: '<' :: back ∧ Opens back name

theorem hereDocument?_cons_cons (rest : Line) :
    hereDocument? ('<' :: '<' :: rest) =
      (openerName? rest).or (hereDocument? ('<' :: rest)) := by
  rw [hereDocument?.eq_2]
  cases openerName? rest <;> simp

/-- Only a character that has one of its kind behind it can start an opener. -/
theorem hereDocument?_cons {c : Char} {rest : Line} (h : c ≠ '<' ∨ rest.head? ≠ some '<') :
    hereDocument? (c :: rest) = hereDocument? rest := by
  cases rest with
  | nil => rfl
  | cons d rest =>
    have hcd : ¬ (c = '<' ∧ d = '<') := by
      rintro ⟨rfl, rfl⟩
      simp at h
    rw [hereDocument?.eq_2, if_neg hcd]

/-- What the search finds is the name of an opener. -/
theorem exists_opens {cs name : Line} (h : hereDocument? cs = some name) :
    ∃ front back, cs = front ++ '<' :: '<' :: back ∧ Opens back name := by
  induction cs with
  | nil => cases h
  | cons c rest ih =>
    have hfurther : hereDocument? rest = some name →
        ∃ front back, c :: rest = front ++ '<' :: '<' :: back ∧ Opens back name := by
      intro hrest
      obtain ⟨front, back, hcs, ho⟩ := ih hrest
      exact ⟨c :: front, back, by rw [hcs, List.cons_append], ho⟩
    by_cases hc : c ≠ '<' ∨ rest.head? ≠ some '<'
    · exact hfurther (by rwa [hereDocument?_cons hc] at h)
    · obtain ⟨rfl, hd⟩ : c = '<' ∧ rest.head? = some '<' := by
        simpa only [not_or, not_not] using hc
      obtain ⟨more, rfl⟩ := List.head?_eq_some_iff.1 hd
      rw [hereDocument?_cons_cons] at h
      cases ho : openerName? more with
      | some found =>
        rw [ho, Option.some_or] at h
        obtain rfl := Option.some_inj.1 h
        exact ⟨[], more, rfl, openerName?_eq_some_iff.1 ho⟩
      | none => exact hfurther (by rwa [ho, Option.none_or] at h)

theorem isName_of_hereDocument? {cs name : Line} (h : hereDocument? cs = some name) :
    IsName name := by
  obtain ⟨-, -, -, -, -, -, -, -, -, -, hn, -⟩ := exists_opens h
  exact hn

/-- The search finds something exactly in texts that hold an opener. -/
theorem hasOpener_iff {cs : Line} : HasOpener cs ↔ ∃ name, hereDocument? cs = some name := by
  constructor
  · rintro ⟨front, back, name, rfl, ho⟩
    -- An opener further in front hides this one.
    induction front with
    | nil => exact ⟨name, by rw [List.nil_append, hereDocument?_cons_cons,
        openerName?_eq_some_iff.2 ho, Option.some_or]⟩
    | cons c front ih =>
      obtain ⟨inner, hinner⟩ := ih
      by_cases hc : c ≠ '<' ∨ (front ++ '<' :: '<' :: back).head? ≠ some '<'
      · exact ⟨inner, by rw [List.cons_append, hereDocument?_cons hc, hinner]⟩
      · obtain ⟨rfl, hd⟩ : c = '<' ∧ (front ++ '<' :: '<' :: back).head? = some '<' := by
          simpa only [not_or, not_not] using hc
        obtain ⟨more, hmore⟩ := List.head?_eq_some_iff.1 hd
        rw [hmore] at hinner
        rw [List.cons_append, hmore, hereDocument?_cons_cons]
        cases openerName? more with
        | none => exact ⟨inner, hinner⟩
        | some found => exact ⟨found, rfl⟩
  · rintro ⟨name, h⟩
    obtain ⟨front, back, hcs, ho⟩ := exists_opens h
    exact ⟨front, back, name, hcs, ho⟩

/-- A text without `<<` in front does not disturb the search, when no opener starts at its end. -/
theorem hereDocument?_append_left {front rest : Line} (hf : ¬ ['<', '<'] <:+: front)
    (hr : rest.head? ≠ some '<') : hereDocument? (front ++ rest) = hereDocument? rest := by
  induction front with
  | nil => rfl
  | cons c front ih =>
    have hc : c ≠ '<' ∨ (front ++ rest).head? ≠ some '<' := by
      by_contra hc
      obtain ⟨rfl, hd⟩ : c = '<' ∧ (front ++ rest).head? = some '<' := by
        simpa only [not_or, not_not] using hc
      cases front with
      | nil => exact hr hd
      | cons d front =>
        obtain rfl : d = '<' := by simpa using hd
        exact hf ⟨[], front, rfl⟩
    rw [List.cons_append, hereDocument?_cons hc]
    exact ih fun h => hf (List.infix_cons h)

theorem hereDocument?_append_of_notMem {front : Line} (hf : '<' ∉ front) (rest : Line) :
    hereDocument? (front ++ rest) = hereDocument? rest := by
  induction front with
  | nil => rfl
  | cons c front ih =>
    obtain ⟨hc, hf⟩ : '<' ≠ c ∧ '<' ∉ front := by simpa using hf
    rw [List.cons_append, hereDocument?_cons (.inl hc.symm), ih hf]

/-- The texts that no opener can run into: they do not go on with a name, and nothing in them can be
the name of an opener that started in front of them. -/
structure Closes (rest : Line) : Prop where
  head : ∀ c ∈ rest.head?, isNameChar c = false ∧ c ≠ '-' ∧ c ≠ '<'
  inside : ∀ c ∈ (dropOne isQuote (Blank.stripLeft rest)).head?, isNameChar c = false

theorem Closes.of_blank {gap : Line} (h : ∀ c ∈ gap, Blank.isBlank c = true) : Closes gap where
  head := by
    intro c hc
    have hb := h c (List.mem_of_mem_head? hc)
    refine ⟨?_, ne_of_isBlank hb (by decide), ne_of_isBlank hb (by decide)⟩
    by_contra hn
    simp [isBlank_of_isNameChar (by simpa using hn)] at hb
  inside := by
    rw [Blank.stripLeft, List.dropWhile_eq_nil_iff.2 h]
    simp [dropOne]

theorem Closes.of_quote {q : Char} (hq : isQuote q = true) {rest : Line}
    (h : ∀ c ∈ rest.head?, isNameChar c = false) : Closes (q :: rest) where
  head := by
    rw [List.head?_cons]
    obtain rfl | rfl := isQuote_iff.1 hq <;> simp <;> decide
  inside := by
    rw [Blank.stripLeft, Blank.dropWhile_eq_self (by simpa using (isBlank_of_isQuote hq).1)]
    simpa [dropOne, hq] using h

theorem leadingName?_append {rest : Line} (h : ∀ c ∈ rest.head?, isNameChar c = false)
    (cs : Line) : leadingName? (cs ++ rest) = leadingName? cs := by
  cases cs with
  | nil =>
    cases rest with
    | nil => rfl
    | cons c rest =>
      have hc : startsName c = false := by
        by_contra hs
        simp [isNameChar_of_startsName (by simpa using hs)] at h
      simp [leadingName?, hc]
  | cons c cs =>
    have hrest : rest.takeWhile isNameChar = [] := by
      cases rest with
      | nil => rfl
      | cons d rest => exact List.takeWhile_cons_of_neg (by simp [h d rfl])
    have htake : (c :: cs ++ rest).takeWhile isNameChar = (c :: cs).takeWhile isNameChar := by
      rw [List.takeWhile_append, hrest, List.append_nil]
      split_ifs with hall
      · exact ((List.takeWhile_prefix isNameChar).eq_of_length hall).symm
      · rfl
    rw [leadingName?, htake, leadingName?]
    rfl

theorem openerName?_append {rest : Line} (h : Closes rest) (cs : Line) :
    openerName? (cs ++ rest) = openerName? cs := by
  have hdash : dropOne (· == '-') (cs ++ rest) = dropOne (· == '-') cs ++ rest := by
    cases cs with
    | nil => exact dropOne_append_left (.inl rfl) fun c hc => by simpa using (h.head c hc).2.1
    | cons c cs => exact dropOne_append_of_ne_nil (List.cons_ne_nil c cs) rest
  rw [openerName?_eq, openerName?_eq, hdash]
  generalize dropOne (· == '-') cs = ds
  rw [Blank.stripLeft, Blank.stripLeft, List.dropWhile_append]
  by_cases hd : ds.dropWhile Blank.isBlank = []
  · -- The opener has no name yet, and what follows brings none.
    rw [hd, List.isEmpty_nil, if_pos rfl]
    exact leadingName?_append h.inside []
  · rw [if_neg (by simpa using hd), dropOne_append_of_ne_nil hd]
    exact leadingName?_append (fun c hc => (h.head c hc).1) _

/-- A text that no opener can run into does not disturb the search in front of it. -/
theorem hereDocument?_append_right {rest : Line} (h : Closes rest)
    (hnone : hereDocument? rest = none) (cs : Line) :
    hereDocument? (cs ++ rest) = hereDocument? cs := by
  induction cs with
  | nil => exact hnone
  | cons c cs ih =>
    by_cases hc : c ≠ '<' ∨ cs.head? ≠ some '<'
    · have hc' : c ≠ '<' ∨ (cs ++ rest).head? ≠ some '<' := by
        refine hc.imp_right fun hcs => ?_
        cases cs with
        | nil => exact fun hr => (h.head '<' hr).2.2 rfl
        | cons d cs => exact hcs
      rw [List.cons_append, hereDocument?_cons hc', hereDocument?_cons hc, ih]
    · obtain ⟨rfl, hd⟩ : c = '<' ∧ cs.head? = some '<' := by
        simpa only [not_or, not_not] using hc
      obtain ⟨more, rfl⟩ := List.head?_eq_some_iff.1 hd
      rw [List.cons_append, List.cons_append, hereDocument?_cons_cons, hereDocument?_cons_cons,
        openerName?_append h, ← List.cons_append, ih]

/-- Blanks around a text do not disturb the search. -/
theorem hereDocument?_strip (cs : Line) : hereDocument? (Blank.strip cs) = hereDocument? cs := by
  have hblank : ∀ gap : Line, (∀ c ∈ gap, Blank.isBlank c = true) → '<' ∉ gap :=
    fun gap hg hmem => absurd (hg _ hmem) (by decide)
  obtain ⟨lead, tail, hlead, htail, hcs⟩ := Blank.exists_trim Blank.isBlank cs
  have hnone : hereDocument? tail = none := by
    rw [← List.append_nil tail, hereDocument?_append_of_notMem (hblank tail htail)]
    rfl
  conv_rhs => rw [hcs]
  rw [hereDocument?_append_right (.of_blank htail) hnone,
    hereDocument?_append_of_notMem (hblank lead hlead), Blank.strip]

end Reader
end ContainerDocs
