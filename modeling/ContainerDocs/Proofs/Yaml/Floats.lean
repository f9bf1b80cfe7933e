import ContainerDocs.Proofs.Json.Number
import ContainerDocs.Proofs.Text.LetterCase
import ContainerDocs.Proofs.Yaml.Integers

/-!
# Which numbers with a point have a value

A text that looks like a number with a point has a value, unless it is a number to base sixty whose
first parts count more often than a floating point number can say.

## Main definitions

* `Scalar.IsNumeral` — the characters of a decimal number.
* `Scalar.IsDecimal`, `Scalar.IsSixties` — the parts of a decimal number and of one to base sixty.

## Main statements

* `Scalar.fault?_sexagesimal` — the parts of a number to base sixty, added up.
* `Scalar.fault?_float` — the fault of a number with a point.
-/

namespace ContainerDocs.Yaml.Scalar

open Character

/-! ## Numbers with a point -/

theorem weights_finite :
    ((List.range 174).all fun k => (Binary64.ofInt (60 ^ k : Nat)).isFinite) = true := by
  decide +kernel

theorem weight_infinite : (Binary64.ofInt (60 ^ 174 : Nat)).isFinite = false := by
  decide +kernel

/-- The 175th part of a number to base sixty counts too often. -/
theorem fault?_sexagesimal (k : Nat) (hk : k ≤ 174) (sum : Binary64) (ds : List Binary64) :
    fault? (sexagesimal (60 ^ k) sum ds) =
      if 174 < k + ds.length then some .outOfRange else none := by
  induction ds generalizing k sum with
  | nil =>
    rw [if_neg (by simpa using hk)]
    rfl
  | cons d ds ih =>
    rw [sexagesimal]
    rcases Nat.lt_or_eq_of_le hk with hlt | rfl
    · have hfinite := List.all_eq_true.1 weights_finite k (List.mem_range.2 hlt)
      rw [if_pos hfinite, ← Nat.pow_succ, ih (k + 1) hlt, List.length_cons,
        Nat.add_assoc, Nat.add_comm 1]
    · rw [weight_infinite, if_neg Bool.false_ne_true, if_pos (by simp)]
      rfl

/-- What may follow the digits of a number: nothing, or an exponent. -/
def EndsDecimal (e : List Char) : Prop :=
  e = [] ∨ ∃ sign ds,
    e = 'e' :: sign :: ds ∧ (sign = '-' ∨ sign = '+') ∧ ds ≠ [] ∧ Json.AllDigits ds

theorem isSome_readExponent {e : List Char} (h : EndsDecimal e) :
    (Schema.readExponent e).isSome = true := by
  rcases h with rfl | ⟨sign, ds, rfl, hsign, hne, hds⟩
  · rfl
  · have hread : (ds.isEmpty || !ds.all Char.isDigit) = false := by
      simpa [hne] using List.all_eq_true.2 hds
    rcases hsign with rfl | rfl <;> simp [Schema.readExponent, Schema.takeSign, hread]

theorem takeSign_of_isDigit {c : Char} (hc : c.isDigit = true ∨ c = '.') (rest : List Char) :
    Schema.takeSign (c :: rest) = (false, c :: rest) := by
  have hminus : c ≠ '-' := by rintro rfl; revert hc; decide
  have hplus : c ≠ '+' := by rintro rfl; revert hc; decide
  rw [Schema.takeSign, if_neg hminus, if_neg hplus]

theorem isSome_readDecimal {ds : List Char} (hne : ds ≠ []) (hds : Json.AllDigits ds) :
    (Schema.readDecimal ds).isSome = true := by
  have hsign : Schema.takeSign ds = (false, ds) := by
    cases ds with
    | nil => exact absurd rfl hne
    | cons c rest => exact takeSign_of_isDigit (.inl (hds c List.mem_cons_self)) rest
  have hwhole : ds.takeWhile Char.isDigit = ds := List.takeWhile_eq_self_iff.2 hds
  have hrest : ds.dropWhile Char.isDigit = [] := List.dropWhile_eq_nil_iff.2 hds
  rw [Schema.readDecimal, hsign]
  dsimp only
  rw [hwhole, hrest]
  split_ifs
  · rfl
  · rfl
  · rename_i hempty
    simp [hne] at hempty
  · rfl

theorem isSome_readDecimal_point {ds places e : List Char} (hne : ds ++ places ≠ [])
    (hds : Json.AllDigits ds) (hplaces : Json.AllDigits places) (he : EndsDecimal e) :
    (Schema.readDecimal (ds ++ '.' :: (places ++ e))).isSome = true := by
  have hsign : Schema.takeSign (ds ++ '.' :: (places ++ e)) =
      (false, ds ++ '.' :: (places ++ e)) := by
    cases ds with
    | nil => exact takeSign_of_isDigit (.inr rfl) _
    | cons c rest => exact takeSign_of_isDigit (.inl (hds c List.mem_cons_self)) _
  have hwhole : (ds ++ '.' :: (places ++ e)).takeWhile Char.isDigit = ds := by
    rw [List.takeWhile_append_of_pos hds, List.takeWhile_cons_of_neg (by decide), List.append_nil]
  have hrest : (ds ++ '.' :: (places ++ e)).dropWhile Char.isDigit = '.' :: (places ++ e) := by
    rw [List.dropWhile_append_of_pos hds, List.dropWhile_cons_of_neg (by decide)]
  have hend : e.takeWhile Char.isDigit = [] ∧ e.dropWhile Char.isDigit = e := by
    rcases he with rfl | ⟨sign, ds, rfl, -⟩
    · exact ⟨rfl, rfl⟩
    · exact ⟨List.takeWhile_cons_of_neg (by decide), List.dropWhile_cons_of_neg (by decide)⟩
  have htake : (places ++ e).takeWhile Char.isDigit = places := by
    rw [List.takeWhile_append_of_pos hplaces, hend.1, List.append_nil]
  have hdrop : (places ++ e).dropWhile Char.isDigit = e := by
    rw [List.dropWhile_append_of_pos hplaces, hend.2]
  rw [Schema.readDecimal, hsign]
  dsimp only
  rw [hwhole, hrest]
  split_ifs with _ _ hempty
  · rfl
  · rfl
  · change (ds.isEmpty && ((places ++ e).takeWhile Char.isDigit).isEmpty) = true at hempty
    rw [htake] at hempty
    exact absurd (by simpa using hempty) hne
  · rw [Option.isSome_map]
    change (Schema.readExponent ((places ++ e).dropWhile Char.isDigit)).isSome = true
    rw [hdrop]
    exact isSome_readExponent he

/-! ## Letter case -/

def IsNumeral (c : Char) : Prop := c.isDigit = true ∨ c ∈ ['.', '-', '+', 'e', 'E']

theorem lowerLetter_of_isDigit {c : Char} (h : c.isDigit = true) : Reader.lowerLetter c = c := by
  rw [Char.isDigit, Bool.and_eq_true] at h
  have hhigh : c.toNat ≤ 57 := of_decide_eq_true h.2
  rw [Reader.lowerLetter, if_neg]
  rintro ⟨hlow, -⟩
  have hlow : 65 ≤ c.toNat := hlow
  omega

theorem isVisible_of_isDigit {c : Char} (h : c.isDigit = true) :
    IsVisible c ∧ c ∉ [':', 'k', 'n'] := by
  rw [Char.isDigit, Bool.and_eq_true] at h
  have hlow : 48 ≤ c.toNat := of_decide_eq_true h.1
  have hhigh : c.toNat ≤ 57 := of_decide_eq_true h.2
  refine ⟨⟨by omega, by omega⟩, fun hmem => ?_⟩
  simp only [List.mem_cons, List.not_mem_nil, or_false] at hmem
  rcases hmem with rfl | rfl | rfl <;> exact absurd hhigh (by decide)

theorem isVisible_lowerLetter {c : Char} (h : IsNumeral c) :
    IsVisible (Reader.lowerLetter c) ∧ Reader.lowerLetter c ∉ [':', 'k', 'n'] := by
  rcases h with h | h
  · rw [lowerLetter_of_isDigit h]
    exact isVisible_of_isDigit h
  · simp only [List.mem_cons, List.not_mem_nil, or_false] at h
    rcases h with rfl | rfl | rfl | rfl | rfl
    all_goals exact ⟨⟨by decide, by decide⟩, by decide⟩

/-- The small letters of a number with a point. -/
theorem lowered_eq_map {cs : List Char} (h : ∀ c ∈ cs, IsNumeral c ∨ c = ':') :
    lowered cs = cs.map Reader.lowerLetter := by
  have hword :
      ∀ c ∈ (String.ofList (cs.map Reader.lowerLetter)).toList, c.toNat < 128 ∧ c ≠ 'k' := by
    intro c hc
    rw [String.toList_ofList] at hc
    obtain ⟨d, hd, rfl⟩ := List.mem_map.1 hc
    rcases h d hd with h | rfl
    · obtain ⟨hvisible, hk⟩ := isVisible_lowerLetter h
      exact ⟨hvisible.2, fun hk' => hk (by rw [hk']; decide)⟩
    · decide
  have hlower := (LetterCase.lowerString_eq_iff (s := String.ofList cs) hword).2 (by simp)
  rw [lowered, hlower, String.toList_ofList]

theorem lowerLetter_eq_sign {c : Char} :
    (Reader.lowerLetter c = '-' ↔ c = '-') ∧ (Reader.lowerLetter c = '+' ↔ c = '+') := by
  rw [← Char.toNat_inj, ← Char.toNat_inj, ← Char.toNat_inj, ← Char.toNat_inj,
    LetterCase.toNat_lowerLetter, LetterCase.lowerAscii]
  have hminus : '-'.toNat = 45 := rfl
  have hplus : '+'.toNat = 43 := rfl
  split_ifs <;> omega

theorem unsigned_map_lowerLetter (cs : List Char) :
    unsigned (cs.map Reader.lowerLetter) = (unsigned cs).map Reader.lowerLetter := by
  cases cs with
  | nil => rfl
  | cons c rest =>
    obtain ⟨hminus, hplus⟩ := @lowerLetter_eq_sign c
    by_cases h : c = '-' ∨ c = '+'
    · simp [unsigned, hminus, hplus, h]
    · simp [unsigned, hminus, hplus, h]

/-! ## Faults -/

/-- The fault of a number with a point whose letters are no words. -/
theorem fault?_float_of_not_mem {w body : List Char}
    (htext : unsigned (lowered (withoutLines w)) = body) (hne : body ≠ []) (hn : 'n' ∉ body) :
    fault? (float w) =
      if body.contains ':' then
        fault? ((Blank.splitOn (· = ':') body).mapM decimal >>= fun parts =>
          sexagesimal 1 (Binary64.zero false) parts.reverse)
      else fault? (decimal body) := by
  rw [float]
  generalize lowered (withoutLines w) = text at htext
  have hempty : text.isEmpty = false := by
    cases text with
    | nil => exact absurd htext.symm hne
    | cons => rfl
  have hinf : body ≠ ".inf".toList := by
    rintro rfl
    exact hn (by decide)
  have hnan : body ≠ ".nan".toList := by
    rintro rfl
    exact hn (by decide)
  dsimp only
  rw [hempty, if_neg Bool.false_ne_true, htext, if_neg hinf, if_neg hnan]
  by_cases hcolon : body.contains ':' = true
  · rw [if_pos hcolon, if_pos hcolon]
    cases (Blank.splitOn (· = ':') body).mapM decimal with
    | ok parts => exact fault?_bind _ _
    | error f => rfl
  · rw [if_neg hcolon, if_neg hcolon]
    exact fault?_bind _ _

theorem exists_decimal {cs : List Char} (h : ∀ c ∈ cs, IsVisible c)
    (hread : (Schema.readDecimal cs).isSome = true) : ∃ x, decimal cs = .ok x := by
  obtain ⟨x, hx⟩ := Option.isSome_iff_exists.1 hread
  exact ⟨x, by rw [decimal, numeral_eq_self h, hx]⟩

theorem mem_unsigned {w : List Char} {c : Char} (h : c ∈ w) :
    c = '-' ∨ c = '+' ∨ c ∈ unsigned w := by
  rw [unsigned]
  split_ifs with hsign
  · cases w with
    | nil => cases h
    | cons d rest =>
      rcases List.mem_cons.1 h with rfl | h
      · simp only [List.head?_cons, Option.some_inj] at hsign
        exact hsign.imp_right .inl
      · exact .inr (.inr h)
  · exact .inr (.inr h)

/-- What is left of the text of a number with a point before it is read. -/
theorem unsigned_lowered {w : List Char} {c : Char} (hc : (unsigned w).head? = some c)
    (hline : c ≠ '_') (h : ∀ d ∈ withoutLines (unsigned w), IsNumeral d ∨ d = ':') :
    unsigned (lowered (withoutLines w)) =
      (withoutLines (unsigned w)).map Reader.lowerLetter := by
  have hall : ∀ d ∈ withoutLines w, IsNumeral d ∨ d = ':' := by
    intro d hd
    obtain ⟨hmem, hne⟩ := mem_of_mem_withoutLines hd
    rcases mem_unsigned hmem with rfl | rfl | hmem
    · exact .inl (.inr (by decide))
    · exact .inl (.inr (by decide))
    · exact h d (List.mem_filter.2 ⟨hmem, by simpa using hne⟩)
  rw [lowered_eq_map hall, unsigned_map_lowerLetter, unsigned_withoutLines hc hline]

theorem map_lowerLetter_eq_self {cs : List Char} (h : Json.AllDigits cs) :
    cs.map Reader.lowerLetter = cs :=
  (List.map_congr_left fun c hc => lowerLetter_of_isDigit (h c hc)).trans (List.map_id cs)

theorem allDigits_withoutLines {cs : List Char} (h : ∀ c ∈ cs, isDigitOrLine c = true) :
    Json.AllDigits (withoutLines cs) := isDigit_of_mem_withoutLines h

theorem withoutLines_append (cs ds : List Char) :
    withoutLines (cs ++ ds) = withoutLines cs ++ withoutLines ds := List.filter_append ..

/-- An exponent in small letters. -/
theorem endsDecimal_of_isExponent {e : List Char} (h : isExponent e = true) :
    EndsDecimal ((withoutLines e).map Reader.lowerLetter) := by
  rw [isExponent.eq_def] at h
  split at h
  · exact .inl rfl
  · rename_i c sign ds
    simp only [Bool.and_eq_true, Bool.or_eq_true, decide_eq_true_eq, Bool.not_eq_true',
      List.isEmpty_eq_false_iff, List.all_eq_true] at h
    obtain ⟨⟨⟨hc, hsign⟩, hne⟩, hds⟩ := h
    have hlines : withoutLines (c :: sign :: ds) = c :: sign :: ds := by
      refine withoutLines_eq_self (List.forall_mem_cons.2 ⟨?_, List.forall_mem_cons.2 ⟨?_, ?_⟩⟩)
      · rcases hc with rfl | rfl <;> decide
      · rcases hsign with rfl | rfl <;> decide
      · rintro d hd rfl
        exact absurd (hds '_' hd) (by decide)
    have hlower : Reader.lowerLetter c = 'e' := by rcases hc with rfl | rfl <;> rfl
    have hkeep : Reader.lowerLetter sign = sign := by rcases hsign with rfl | rfl <;> rfl
    rw [hlines, List.map_cons, List.map_cons, hlower, hkeep, map_lowerLetter_eq_self hds]
    exact .inr ⟨sign, ds, rfl, hsign, hne, hds⟩
  · cases h

theorem isNumeral_of_isExponent {e : List Char} (h : isExponent e = true) :
    ∀ c ∈ withoutLines e, IsNumeral c := by
  intro c hc
  obtain ⟨hc, -⟩ := mem_of_mem_withoutLines hc
  rw [isExponent.eq_def] at h
  split at h
  · cases hc
  · simp only [Bool.and_eq_true, Bool.or_eq_true, decide_eq_true_eq, Bool.not_eq_true',
      List.isEmpty_eq_false_iff, List.all_eq_true] at h
    obtain ⟨⟨⟨he, hsign⟩, -⟩, hds⟩ := h
    rcases List.mem_cons.1 hc with rfl | hc
    · exact .inr (by rcases he with rfl | rfl <;> decide)
    · rcases List.mem_cons.1 hc with rfl | hc
      · exact .inr (by rcases hsign with rfl | rfl <;> decide)
      · exact .inl (hds c hc)
  · cases h

structure IsDecimal (body whole places : List Char) : Prop where
  body_eq : body = whole ++ '.' :: places
  whole_digits : ∀ c ∈ whole, isDigitOrLine c = true
  exponent : isExponent (places.dropWhile isDigitOrLine) = true
  digit : whole.head?.any Char.isDigit = true ∨
    whole = [] ∧ places.head?.any Char.isDigit = true

namespace IsDecimal

variable {body whole places : List Char}

theorem allDigits_places (places : List Char) :
    Json.AllDigits (withoutLines (places.takeWhile isDigitOrLine)) :=
  allDigits_withoutLines fun _ hc => List.mem_takeWhile_imp hc

theorem withoutLines_eq (h : IsDecimal body whole places) :
    withoutLines body = withoutLines whole ++
      '.' :: (withoutLines (places.takeWhile isDigitOrLine) ++
        withoutLines (places.dropWhile isDigitOrLine)) := by
  rw [h.body_eq, withoutLines_append, withoutLines_cons (by decide), ← withoutLines_append,
    List.takeWhile_append_dropWhile]

theorem isNumeral (h : IsDecimal body whole places) : ∀ c ∈ withoutLines body, IsNumeral c := by
  rw [h.withoutLines_eq]
  intro c hc
  rcases List.mem_append.1 hc with hc | hc
  · exact .inl (allDigits_withoutLines h.whole_digits c hc)
  rcases List.mem_cons.1 hc with rfl | hc
  · exact .inr (by decide)
  rcases List.mem_append.1 hc with hc | hc
  · exact .inl (allDigits_places places c hc)
  · exact isNumeral_of_isExponent h.exponent c hc

/-- The number starts with a digit or its point, and there is a digit before the exponent. -/
theorem exists_head (h : IsDecimal body whole places) :
    (∃ c, body.head? = some c ∧ c ≠ '_') ∧
      withoutLines whole ++ withoutLines (places.takeWhile isDigitOrLine) ≠ [] := by
  have hline : ∀ {c : Char}, c.isDigit = true → c ≠ '_' := by
    rintro c hc rfl
    exact absurd hc (by decide)
  rw [h.body_eq]
  rcases h.digit with hdigit | ⟨rfl, hdigit⟩
  · cases whole with
    | nil => cases hdigit
    | cons c rest =>
      have hc : c.isDigit = true := hdigit
      exact ⟨⟨c, rfl, hline hc⟩, by simp [withoutLines_cons (hline hc)]⟩
  · cases places with
    | nil => cases hdigit
    | cons c rest =>
      have hc : c.isDigit = true := hdigit
      refine ⟨⟨'.', rfl, by decide⟩, ?_⟩
      rw [List.takeWhile_cons_of_pos (by simp [isDigitOrLine, hc]), withoutLines_cons (hline hc)]
      simp

/-- The text of the number in small letters. -/
theorem map_lowerLetter (h : IsDecimal body whole places) :
    (withoutLines body).map Reader.lowerLetter = withoutLines whole ++
      '.' :: (withoutLines (places.takeWhile isDigitOrLine) ++
        (withoutLines (places.dropWhile isDigitOrLine)).map Reader.lowerLetter) := by
  rw [h.withoutLines_eq, List.map_append, List.map_cons, List.map_append,
    map_lowerLetter_eq_self (allDigits_withoutLines h.whole_digits),
    map_lowerLetter_eq_self (allDigits_places places)]
  rfl

theorem countP_colon (h : IsDecimal body whole places) : body.countP (· = ':') = 0 := by
  rw [List.countP_eq_zero]
  intro c hc hcolon
  have hmem : ':' ∈ withoutLines body :=
    List.mem_filter.2 ⟨of_decide_eq_true hcolon ▸ hc, by decide⟩
  exact (isVisible_lowerLetter (h.isNumeral ':' hmem)).2 (by decide)

end IsDecimal

/-- A decimal number with a point has a value. -/
theorem fault?_float_of_isDecimal {w whole places : List Char}
    (h : IsDecimal (unsigned w) whole places) : fault? (float w) = none := by
  obtain ⟨⟨c, hc, hline⟩, hne⟩ := h.exists_head
  have htext := unsigned_lowered hc hline fun d hd => .inl (h.isNumeral d hd)
  have hvisible : ∀ c ∈ (withoutLines (unsigned w)).map Reader.lowerLetter,
      IsVisible c ∧ c ∉ [':', 'k', 'n'] := by
    intro c hc
    obtain ⟨d, hd, rfl⟩ := List.mem_map.1 hc
    exact isVisible_lowerLetter (h.isNumeral d hd)
  have hcolon : ((withoutLines (unsigned w)).map Reader.lowerLetter).contains ':' = false := by
    rw [← Bool.not_eq_true, List.contains_iff_mem]
    exact fun hmem => (hvisible ':' hmem).2 (by decide)
  have hread := isSome_readDecimal_point hne (allDigits_withoutLines h.whole_digits)
    (IsDecimal.allDigits_places places) (endsDecimal_of_isExponent h.exponent)
  rw [← h.map_lowerLetter] at hread
  obtain ⟨x, hx⟩ := exists_decimal (fun c hc => (hvisible c hc).1) hread
  rw [fault?_float_of_not_mem htext (by rw [h.map_lowerLetter]; simp)
    fun hn => (hvisible 'n' hn).2 (by decide), hcolon, if_neg Bool.false_ne_true, hx]
  rfl

/-! ## Numbers to base sixty -/

structure IsSixties (body whole places : List Char) : Prop where
  body_eq : body = whole ++ '.' :: places
  several : ':' ∈ whole
  parts : ∀ part ∈ Blank.splitOn (· = ':') whole, isDigits part = true
  places_digits : ∀ c ∈ places, isDigitOrLine c = true

/-- The look of a number to base sixty. -/
theorem isSixties_of_isSexagesimal {body whole places : List Char}
    (hbody : body = whole ++ '.' :: places) (hwhole : isSexagesimal isDigits whole = true)
    (hplaces : ∀ c ∈ places, isDigitOrLine c = true) : IsSixties body whole places := by
  rw [isSexagesimal] at hwhole
  split at hwhole
  · rename_i first second more hsplit
    simp only [Bool.and_eq_true, List.all_eq_true] at hwhole
    obtain ⟨⟨hfirst, hsecond⟩, hmore⟩ := hwhole
    obtain ⟨c, hc, hcolon⟩ := Blank.exists_mem_of_splitOn hsplit
    rw [of_decide_eq_true hcolon] at hc
    refine ⟨hbody, hc, ?_, hplaces⟩
    rw [hsplit]
    exact List.forall_mem_cons.2 ⟨hfirst, List.forall_mem_cons.2
      ⟨(isDigits_of_isSixtieth hsecond).1, fun part hpart =>
        (isDigits_of_isSixtieth (hmore part hpart)).1⟩⟩
  · cases hwhole

namespace IsSixties

variable {body whole places : List Char}

theorem isDigit_or (h : IsSixties body whole places) :
    ∀ c ∈ withoutLines body, c.isDigit = true ∨ c = '.' ∨ c = ':' := by
  intro c hc
  obtain ⟨hc, hline⟩ := mem_of_mem_withoutLines hc
  rw [h.body_eq] at hc
  rcases List.mem_append.1 hc with hc | hc
  · rcases Blank.mem_splitOn (p := fun d => decide (d = ':')) hc with hcolon | ⟨part, hpart, hc⟩
    · exact .inr (.inr (of_decide_eq_true hcolon))
    · obtain ⟨_, _, -, -, hall⟩ := exists_cons_of_isDigits (h.parts part hpart)
      exact .inl (isDigit_of_isDigitOrLine (hall c hc) hline)
  · rcases List.mem_cons.1 hc with rfl | hc
    · exact .inr (.inl rfl)
    · exact .inl (isDigit_of_isDigitOrLine (h.places_digits c hc) hline)

theorem exists_head (h : IsSixties body whole places) : ∃ c, body.head? = some c ∧ c ≠ '_' := by
  obtain ⟨first, more, hsplit⟩ := Blank.exists_splitOn (fun c => decide (c = ':')) whole
  obtain ⟨c, rest, rfl, hc, -⟩ :=
    exists_cons_of_isDigits (h.parts first (hsplit ▸ List.mem_cons_self))
  obtain ⟨tail, htail⟩ := List.takeWhile_prefix (fun d => !decide (d = ':')) (l := whole)
  rw [Blank.takeWhile_of_splitOn hsplit] at htail
  refine ⟨c, by rw [h.body_eq, ← htail]; rfl, ?_⟩
  rintro rfl
  exact absurd hc (by decide)

/-- Every part of the number is a decimal number. -/
theorem exists_decimal_of_mem (h : IsSixties body whole places) :
    ∀ part ∈ Blank.splitOn (· = ':') (withoutLines body), ∃ x, decimal part = .ok x := by
  have htail : ∀ c ∈ '.' :: places, decide (c = ':') = false := by
    refine List.forall_mem_cons.2 ⟨by decide, fun c hc => decide_eq_false ?_⟩
    rintro rfl
    exact absurd (h.places_digits ':' hc) (by decide)
  have hdigits : ∀ part ∈ Blank.splitOn (· = ':') whole,
      Json.AllDigits (withoutLines part) ∧ withoutLines part ≠ [] := by
    intro part hpart
    obtain ⟨c, rest, rfl, hc, hall⟩ := exists_cons_of_isDigits (h.parts part hpart)
    refine ⟨allDigits_withoutLines hall, ?_⟩
    rw [withoutLines_cons (by rintro rfl; exact absurd hc (by decide))]
    exact List.cons_ne_nil _ _
  obtain ⟨init, last, hwhole, hbody⟩ := Blank.splitOn_append htail whole
  rw [hwhole] at hdigits
  intro part hpart
  rw [splitOn_withoutLines, h.body_eq, hbody, List.map_append, List.mem_append] at hpart
  rcases hpart with hpart | hpart
  · obtain ⟨piece, hpiece, rfl⟩ := List.mem_map.1 hpart
    obtain ⟨hall, hne⟩ := hdigits piece (List.mem_append_left _ hpiece)
    exact exists_decimal (fun c hc => (isVisible_of_isDigit (hall c hc)).1)
      (isSome_readDecimal hne hall)
  · obtain ⟨hall, hne⟩ := hdigits last (List.mem_append_right _ List.mem_cons_self)
    have hplaces := allDigits_withoutLines h.places_digits
    have hread := isSome_readDecimal_point (e := []) (List.append_ne_nil_of_left_ne_nil hne _) hall
      hplaces (.inl rfl)
    rw [List.append_nil] at hread
    have hlast : part = withoutLines last ++ '.' :: withoutLines places := by
      rw [List.mem_singleton.1 hpart, ← withoutLines_cons (by decide), ← withoutLines_append]
    rw [hlast]
    refine exists_decimal (fun c hc => ?_) hread
    rcases List.mem_append.1 hc with hc | hc
    · exact (isVisible_of_isDigit (hall c hc)).1
    · rcases List.mem_cons.1 hc with rfl | hc
      · exact ⟨by decide, by decide⟩
      · exact (isVisible_of_isDigit (hplaces c hc)).1

end IsSixties

/-- A number to base sixty with a point has a value unless it has too many parts. -/
theorem fault?_float_of_isSixties {w whole places : List Char}
    (h : IsSixties (unsigned w) whole places) :
    fault? (float w) = if 174 ≤ (unsigned w).countP (· = ':') then some .outOfRange else none := by
  obtain ⟨c, hc, hline⟩ := h.exists_head
  have hsame : (withoutLines (unsigned w)).map Reader.lowerLetter = withoutLines (unsigned w) := by
    refine (List.map_congr_left fun c hc => ?_).trans (List.map_id _)
    rcases h.isDigit_or c hc with hc | rfl | rfl
    · exact lowerLetter_of_isDigit hc
    · rfl
    · rfl
  have htext : unsigned (lowered (withoutLines w)) = withoutLines (unsigned w) := by
    rw [unsigned_lowered hc hline, hsame]
    intro d hd
    rcases h.isDigit_or d hd with hd | rfl | rfl
    · exact .inl (.inl hd)
    · exact .inl (.inr (by decide))
    · exact .inr rfl
  have hn : 'n' ∉ withoutLines (unsigned w) := by
    intro hn
    rcases h.isDigit_or 'n' hn with hn | hn | hn <;> exact absurd hn (by decide)
  have hcolon : ':' ∈ withoutLines (unsigned w) := by
    refine List.mem_filter.2 ⟨?_, by decide⟩
    rw [h.body_eq]
    exact List.mem_append_left _ h.several
  obtain ⟨xs, hxs⟩ := Traversal.exists_mapM h.exists_decimal_of_mem
  have hcount : xs.length = (unsigned w).countP (· = ':') + 1 := by
    rw [← (Traversal.forall₂_of_mapM hxs).length_eq, splitOn_withoutLines, List.length_map,
      Blank.length_splitOn]
  have hsum := fault?_sexagesimal 0 (by decide) (Binary64.zero false) xs.reverse
  rw [fault?_float_of_not_mem htext (List.ne_nil_of_mem hcolon) hn,
    if_pos (List.contains_iff_mem.2 hcolon), hxs]
  refine hsum.trans ?_
  rw [List.length_reverse, hcount]
  exact if_congr (by omega) rfl rfl

/-! ## All numbers with a point -/

theorem exists_sign (w : List Char) : ∃ sign ∈ [[], ['-'], ['+']], w = sign ++ unsigned w := by
  cases w with
  | nil => exact ⟨[], by decide, rfl⟩
  | cons c rest =>
    by_cases hminus : c = '-'
    · exact ⟨['-'], by decide, by rw [hminus]; rfl⟩
    by_cases hplus : c = '+'
    · exact ⟨['+'], by decide, by rw [hplus]; rfl⟩
    · exact ⟨[], by decide, by simp [unsigned, hminus, hplus]⟩

theorem countP_unsigned (w : List Char) :
    (unsigned w).countP (· = ':') = w.countP (· = ':') := by
  obtain ⟨sign, hsign, hw⟩ := exists_sign w
  have hnone : sign.countP (· = ':') = 0 := by
    simp only [List.mem_cons, List.not_mem_nil, or_false] at hsign
    rcases hsign with rfl | rfl | rfl <;> rfl
  rw [hw, List.countP_append, hnone, Nat.zero_add, ← hw]

/-- A word for infinity has a value, whatever its sign is. -/
theorem infinity_words :
    ([[], ['-'], ['+']].all fun sign => (["inf", "Inf", "INF"].map String.toList).all fun word =>
      fault? (float (sign ++ '.' :: word)) = none &&
        (sign ++ '.' :: word).countP (· = ':') = 0) = true := by
  decide +kernel

/-- A word for what is not a number has a value. -/
theorem nan_words :
    ((["nan", "NaN", "NAN"].map String.toList).all fun word =>
      fault? (float ('.' :: word)) = none && ('.' :: word).countP (· = ':') = 0) = true := by
  decide +kernel

/-- The fault of what looks like a number with a point. -/
theorem fault?_float {w : List Char} (h : isFloat w = true) :
    fault? (float w) = if 174 ≤ w.countP (· = ':') then some .outOfRange else none := by
  have hdecimal : ∀ {whole places : List Char}, IsDecimal (unsigned w) whole places →
      fault? (float w) = if 174 ≤ w.countP (· = ':') then some .outOfRange else none := by
    intro whole places hshape
    rw [fault?_float_of_isDecimal hshape, ← countP_unsigned, hshape.countP_colon]
    rfl
  have hwords : (fault? (float w) = none && w.countP (· = ':') = 0) = true →
      fault? (float w) = if 174 ≤ w.countP (· = ':') then some .outOfRange else none := by
    intro hword
    simp only [Bool.and_eq_true, decide_eq_true_eq] at hword
    rw [hword.1, hword.2]
    rfl
  rw [isFloat] at h
  dsimp only at h
  split at h
  · rename_i point places hplaces
    have hpoint : point = '.' := by
      have hhead := List.head?_dropWhile_not (fun c => decide (c ≠ '.')) (unsigned w)
      rw [hplaces] at hhead
      simpa using hhead
    subst hpoint
    have hbody : unsigned w = (unsigned w).takeWhile (· ≠ '.') ++ '.' :: places := by
      rw [← hplaces, List.takeWhile_append_dropWhile]
    simp only [Bool.or_eq_true, Bool.and_eq_true] at h
    rcases h with (⟨hwhole, hexponent⟩ | ⟨hwhole, hafter⟩) | ⟨hempty, hword⟩
    · obtain ⟨c, rest, hcons, hc, hall⟩ := exists_cons_of_isDigits hwhole
      exact hdecimal ⟨hbody, hall, hexponent, .inl (by rw [hcons]; simpa using hc)⟩
    · rw [← countP_unsigned]
      exact fault?_float_of_isSixties (isSixties_of_isSexagesimal hbody hwhole
        (List.dropWhile_eq_nil_iff.1 (List.isEmpty_iff.1 hafter)))
    · rw [List.isEmpty_iff.1 hempty, List.nil_append] at hbody
      rcases hword with hinfinite | ⟨hsame, hnan | ⟨hdigit, hexponent⟩⟩
      · obtain ⟨sign, hsign, hw⟩ := exists_sign w
        have hall := List.all_eq_true.1 infinity_words sign hsign
        refine hwords ?_
        rw [hw, hbody]
        exact List.all_eq_true.1 hall places (List.contains_iff_mem.1 hinfinite)
      · refine hwords ?_
        rw [← of_decide_eq_true hsame, hbody]
        exact List.all_eq_true.1 nan_words places (List.contains_iff_mem.1 hnan)
      · exact hdecimal ⟨by rw [hbody]; rfl, by simp, hexponent, .inr ⟨rfl, hdigit⟩⟩
  · cases h

end ContainerDocs.Yaml.Scalar
