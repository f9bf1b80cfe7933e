import ContainerDocs.Json.Reader
import ContainerDocs.Number.Format
import ContainerDocs.Proofs.Number.Shortest
import ContainerDocs.Proofs.Text.CodePoint

/-!
# Printed numbers read back

An integer is read from its digits. A floating point number is read from its shortest decimal, in
the positional and in the scientific form, and from the word for it if it is not finite.

## Main definitions

* `Json.EndsNumber` — what follows is no part of a number.

## Main statements

* `Json.number_integer`, `Json.number_fractional` — what is read from digits.
* `Json.atom_integer` — a printed integer is read.
* `Json.atom_shortestChars` — a printed floating point number is read.
-/

namespace ContainerDocs

namespace Json

/-! ## Digits -/

def AllDigits (cs : List Char) : Prop := ∀ c ∈ cs, c.isDigit = true

theorem AllDigits.append {cs ds : List Char} (hcs : AllDigits cs) (hds : AllDigits ds) :
    AllDigits (cs ++ ds) := by
  intro c hc
  exact (List.mem_append.1 hc).elim (hcs c) (hds c)

theorem allDigits_digits (n : Nat) : AllDigits (Format.digits n) := fun _ hc =>
  Nat.isDigit_of_mem_toDigits (by decide) (by decide) hc

theorem allDigits_zeros (n : Nat) : AllDigits (List.replicate n '0') := by
  intro c hc
  rw [List.eq_of_mem_replicate hc]
  rfl

theorem allDigits_padded (width n : Nat) : AllDigits (Format.padded width n) :=
  (allDigits_zeros _).append (allDigits_digits n)

theorem isDigit_ofChar (c : Char) : isDigit (CodePoint.ofChar c) = c.isDigit := by
  rw [Bool.eq_iff_iff, isDigit, Char.isDigit, Bool.and_eq_true, Bool.and_eq_true]
  simp only [decide_eq_true_eq]
  rfl

/-- Only zero has a zero in front, and it has no other digit. -/
theorem exists_digits (n : Nat) :
    ∃ c cs, Format.digits n = c :: cs ∧ (n ≠ 0 → c ≠ '0') ∧ (c = '0' → cs = []) := by
  induction n using Nat.strongRecOn with
  | _ n ih =>
    rw [Format.digits, Nat.toDigits_eq_if (by decide)]
    split_ifs with hn
    · exact ⟨_, [], rfl, by simp, fun _ => rfl⟩
    · obtain ⟨c, cs, hdigits, hzero, -⟩ := ih (n / 10) (by omega)
      have hc := hzero (by omega)
      refine ⟨c, cs ++ [Nat.digitChar (n % 10)], ?_, fun _ => hc, fun h => absurd h hc⟩
      rw [← List.cons_append, ← hdigits]
      rfl

theorem digitsValue_ofChars (cs : List Char) :
    digitsValue (Text.ofChars cs) = Nat.ofDigitChars 10 cs 0 := by
  rw [digitsValue, Text.ofChars, List.foldl_map, Nat.ofDigitChars]
  congr 1
  funext n c
  rw [Nat.mul_comm]
  rfl

@[simp] theorem digitsValue_digits (n : Nat) :
    digitsValue (Text.ofChars (Format.digits n)) = n := by
  rw [digitsValue_ofChars]
  exact Nat.ofDigitChars_ten_toDigits

/-- Zeros in front do not count. -/
theorem digitsValue_zeros_append (k : Nat) (cs : List Char) :
    digitsValue (Text.ofChars (List.replicate k '0' ++ cs)) = digitsValue (Text.ofChars cs) := by
  rw [digitsValue_ofChars, digitsValue_ofChars, Nat.ofDigitChars_append,
    Nat.ofDigitChars_replicate_zero, Nat.mul_zero]

/-- Zeros at the end count as powers of ten. -/
theorem digitsValue_append_zeros (k : Nat) (cs : List Char) :
    digitsValue (Text.ofChars (cs ++ List.replicate k '0')) =
      digitsValue (Text.ofChars cs) * 10 ^ k := by
  rw [digitsValue_ofChars, digitsValue_ofChars, Nat.ofDigitChars_append,
    Nat.ofDigitChars_replicate_zero, Nat.mul_comm]

/-! ## The parts of a number -/

section Parts

variable {cs : List Char} {tail : Text}

def EndsDigits (s : Text) : Prop := ∀ c ∈ s.head?, isDigit c = false

theorem takeWhile_digits (hcs : AllDigits cs) (htail : EndsDigits tail) :
    (Text.ofChars cs ++ tail).takeWhile isDigit = Text.ofChars cs := by
  rw [List.takeWhile_append_of_pos]
  · cases tail with
    | nil => simp
    | cons c tail => simp [htail c rfl]
  · intro c hc
    obtain ⟨d, hd, rfl⟩ := List.mem_map.1 hc
    rw [isDigit_ofChar, hcs d hd]

theorem dropWhile_digits (hcs : AllDigits cs) (htail : EndsDigits tail) :
    (Text.ofChars cs ++ tail).dropWhile isDigit = tail := by
  rw [List.dropWhile_append_of_pos]
  · cases tail with
    | nil => rfl
    | cons c tail => simp [htail c rfl]
  · intro c hc
    obtain ⟨d, hd, rfl⟩ := List.mem_map.1 hc
    rw [isDigit_ofChar, hcs d hd]

def EndsNumber (s : Text) : Prop :=
  ∀ c ∈ s.head?, isDigit c = false ∧ c ≠ CodePoint.ofChar '.' ∧ c ≠ CodePoint.ofChar 'e' ∧
    c ≠ CodePoint.ofChar 'E'

theorem EndsNumber.endsDigits (h : EndsNumber tail) : EndsDigits tail := fun c hc => (h c hc).1

theorem places_of_ne (h : ∀ c ∈ tail.head?, c ≠ CodePoint.ofChar '.') :
    places tail = ([], tail) := by
  rcases tail with - | ⟨c, - | ⟨d, tail⟩⟩
  · rfl
  · rfl
  · rw [places, if_neg fun hpoint => h c rfl hpoint.1]

theorem places_point (hcs : AllDigits cs) (hne : cs ≠ []) (htail : EndsDigits tail) :
    places (CodePoint.ofChar '.' :: (Text.ofChars cs ++ tail)) = (Text.ofChars cs, tail) := by
  have htake := takeWhile_digits hcs htail
  have hdrop := dropWhile_digits hcs htail
  obtain ⟨d, cs, rfl⟩ := List.exists_cons_of_ne_nil hne
  have hd : isDigit (CodePoint.ofChar d) = true := by
    rw [isDigit_ofChar]
    exact hcs d List.mem_cons_self
  rw [Text.ofChars_cons, List.cons_append] at htake hdrop ⊢
  rw [places, if_pos ⟨rfl, hd⟩, htake, hdrop]

theorem exponent?_eq_none (h : EndsNumber tail) : exponent? tail = none := by
  cases tail with
  | nil => rfl
  | cons c tail =>
    obtain ⟨-, -, he, hE⟩ := h c rfl
    simp only [exponent?, he, hE, or_self, if_false]

theorem digitsValue_padded (width n : Nat) :
    digitsValue (Text.ofChars (Format.padded width n)) = n := by
  rw [Format.padded, digitsValue_zeros_append, digitsValue_digits]

theorem exponent?_exponentPart (k : Int) (htail : EndsDigits tail) :
    exponent? (Text.ofChars (Format.exponentPart k) ++ tail) = some (k, tail) := by
  have htake := takeWhile_digits (allDigits_padded 2 k.natAbs) htail
  have hdrop := dropWhile_digits (allDigits_padded 2 k.natAbs) htail
  have hne : (Text.ofChars (Format.padded 2 k.natAbs)).isEmpty = false := by
    simp [Text.ofChars, Format.padded, Format.digits]
  rw [Format.exponentPart, Text.ofChars_cons, Text.ofChars_cons, List.cons_append,
    List.cons_append, exponent?, if_pos (Or.inl rfl)]
  by_cases hk : k < 0
  · rw [if_pos hk, if_pos rfl]
    dsimp only
    rw [htake, hdrop, hne, digitsValue_padded, if_pos rfl, if_neg Bool.false_ne_true,
      Int.ofNat_natAbs_of_nonpos hk.le, neg_neg]
  · rw [if_neg hk, if_neg (by decide), if_pos rfl]
    dsimp only
    rw [htake, hdrop, hne, digitsValue_padded, if_neg Bool.false_ne_true,
      if_neg Bool.false_ne_true, Int.natAbs_of_nonneg (not_lt.1 hk)]

end Parts

/-! ## Numbers from digits -/

/-- Digits that stand before a point: a zero in front stands alone. -/
structure IsWhole (ws : List Char) : Prop where
  digits : AllDigits ws
  ne_nil : ws ≠ []
  zero : ∀ cs, ws = '0' :: cs → cs = []

theorem isWhole_cons {c : Char} {cs : List Char} (h : AllDigits (c :: cs)) (hc : c ≠ '0') :
    IsWhole (c :: cs) :=
  ⟨h, List.cons_ne_nil _ _, fun _ heq => absurd (List.cons.inj heq).1 hc⟩

theorem isWhole_digits (n : Nat) : IsWhole (Format.digits n) := by
  obtain ⟨c, cs, hdigits, -, hzero⟩ := exists_digits n
  refine ⟨allDigits_digits n, Nat.toDigits_ne_nil, fun cs' heq => ?_⟩
  obtain ⟨rfl, rfl⟩ := List.cons.inj (hdigits.symm.trans heq)
  exact hzero rfl

section Digits

variable {ws : List Char} (negative : Bool) {tail : Text} (whole : Text)

/-- The digits before the point and what follows them. -/
theorem whole_digits {c : Char} {cs : List Char} (hws : IsWhole (c :: cs))
    (htail : EndsDigits tail) :
    (if CodePoint.ofChar c = CodePoint.ofChar '0' then [CodePoint.ofChar c]
      else (CodePoint.ofChar c :: (Text.ofChars cs ++ tail)).takeWhile isDigit) =
        Text.ofChars (c :: cs) ∧
      (if CodePoint.ofChar c = CodePoint.ofChar '0' then Text.ofChars cs ++ tail
      else (CodePoint.ofChar c :: (Text.ofChars cs ++ tail)).dropWhile isDigit) = tail := by
  by_cases hc : c = '0'
  · subst hc
    rw [hws.zero cs rfl, if_pos rfl, if_pos rfl]
    exact ⟨rfl, rfl⟩
  · have hne := fun h => hc (CodePoint.ofChar_injective h)
    rw [if_neg hne, if_neg hne]
    exact ⟨takeWhile_digits hws.digits htail, dropWhile_digits hws.digits htail⟩

/-- Digits that nothing of a number follows are an integer. -/
theorem number_integer (hws : IsWhole ws) (htail : EndsNumber tail)
    (hlength : ws.length ≤ maxDigits) :
    number negative (Text.ofChars ws ++ tail) whole =
      .ok (.int (if negative then -(digitsValue (Text.ofChars ws) : Int)
        else digitsValue (Text.ofChars ws)), tail) := by
  obtain ⟨c, cs, rfl⟩ := List.exists_cons_of_ne_nil hws.ne_nil
  obtain ⟨hwhole, hrest⟩ := whole_digits hws htail.endsDigits
  have hc : isDigit (CodePoint.ofChar c) = true := by
    rw [isDigit_ofChar]
    exact hws.digits c List.mem_cons_self
  have hplaces : places tail = ([], tail) := places_of_ne fun d hd => (htail d hd).2.1
  have hlong : ¬ maxDigits < (Text.ofChars (c :: cs)).length := by
    rw [Text.ofChars, List.length_map]
    omega
  rw [Text.ofChars_cons, List.cons_append, number]
  simp only [hc, hwhole, hrest, hplaces, exponent?_eq_none htail]
  rw [if_neg (by decide), if_neg hlong, ← Text.ofChars_cons]

/-- Digits with places or an exponent are a floating point number. -/
theorem number_fractional {fraction after rest : Text} {k : Int} (hws : IsWhole ws)
    (htail : EndsDigits tail) (hplaces : places tail = (fraction, after))
    (hexponent : (exponent? after).getD (0, after) = (k, rest))
    (hfloat : fraction ≠ [] ∨ exponent? after ≠ none) :
    number negative (Text.ofChars ws ++ tail) whole =
      .ok (.float (Binary64.ofDecimal negative (digitsValue (Text.ofChars ws ++ fraction))
        (k - fraction.length)), rest) := by
  obtain ⟨c, cs, rfl⟩ := List.exists_cons_of_ne_nil hws.ne_nil
  obtain ⟨hwhole, hrest⟩ := whole_digits hws htail
  have hc : isDigit (CodePoint.ofChar c) = true := by
    rw [isDigit_ofChar]
    exact hws.digits c List.mem_cons_self
  rw [Text.ofChars_cons, List.cons_append, number]
  simp only [hc, hwhole, hrest, hplaces]
  rw [if_neg (by decide)]
  cases fraction with
  | nil =>
    cases hafter : exponent? after with
    | none => exact absurd hafter (hfloat.resolve_left (not_not.2 rfl))
    | some e =>
      rw [hafter, Option.getD_some] at hexponent
      subst hexponent
      rfl
  | cons d fraction =>
    dsimp only
    rw [hexponent]
    rfl

theorem endsDigits_point (t : Text) : EndsDigits (CodePoint.ofChar '.' :: t) := by
  rintro c ⟨⟩
  rfl

/-- Digits before and after a point are a floating point number. -/
theorem number_point {fs : List Char} {after rest : Text} {k : Int} (hws : IsWhole ws)
    (hfs : AllDigits fs) (hne : fs ≠ []) (hafter : EndsDigits after)
    (hexponent : (exponent? after).getD (0, after) = (k, rest)) :
    number negative (Text.ofChars (ws ++ '.' :: fs) ++ after) whole =
      .ok (.float (Binary64.ofDecimal negative (digitsValue (Text.ofChars (ws ++ fs)))
        (k - fs.length)), rest) := by
  have hplaces := places_point hfs hne hafter
  have hfraction : Text.ofChars fs ≠ [] := by simpa [Text.ofChars] using hne
  have hnumber := number_fractional negative whole hws (endsDigits_point _) hplaces hexponent
    (Or.inl hfraction)
  rw [Text.ofChars_append, Text.ofChars_append, Text.ofChars_cons, List.append_assoc,
    List.cons_append, hnumber]
  simp [Text.ofChars]

end Digits

/-! ## Decimals -/

section Decimals

variable {d : Nat} (negative : Bool) {tail : Text} (whole : Text)

theorem exponent?_getD (htail : EndsNumber tail) : (exponent? tail).getD (0, tail) = (0, tail) := by
  rw [exponent?_eq_none htail, Option.getD_none]

/-- Zeros stand between the point and the digits. -/
theorem number_zeros_before (n : Nat) (htail : EndsNumber tail) :
    number negative (Text.ofChars ('0' :: '.' :: List.replicate n '0' ++ Format.digits d) ++ tail)
        whole =
      .ok (.float (Binary64.ofDecimal negative d (-(n + (Format.digits d).length))), tail) := by
  have hnumber := number_point negative whole (isWhole_digits 0)
    ((allDigits_zeros n).append (allDigits_digits d))
    (List.append_ne_nil_of_right_ne_nil _ Nat.toDigits_ne_nil) htail.endsDigits
    (exponent?_getD htail)
  have hvalue : digitsValue (Text.ofChars
      (Format.digits 0 ++ (List.replicate n '0' ++ Format.digits d))) = d := by
    have hzeros := digitsValue_zeros_append (n + 1) (Format.digits d)
    rwa [List.replicate_succ, digitsValue_digits] at hzeros
  rw [hvalue, List.length_append, List.length_replicate, zero_sub, Nat.cast_add] at hnumber
  exact hnumber

/-- The point stands among the digits. -/
theorem number_point_among {p : Nat} (hd : d ≠ 0) (hp : 0 < p) (hlt : p < (Format.digits d).length)
    (htail : EndsNumber tail) :
    number negative (Text.ofChars ((Format.digits d).take p ++ '.' :: (Format.digits d).drop p) ++
      tail) whole = .ok (.float (Binary64.ofDecimal negative d (p - (Format.digits d).length)),
        tail) := by
  have hwhole : IsWhole ((Format.digits d).take p) := by
    obtain ⟨c, cs, hdigits, hc, -⟩ := exists_digits d
    obtain ⟨q, rfl⟩ := Nat.exists_eq_add_of_lt hp
    have hall : AllDigits ((c :: cs).take (0 + q + 1)) := fun a ha =>
      allDigits_digits d a (hdigits ▸ List.mem_of_mem_take ha)
    rw [hdigits]
    exact isWhole_cons hall (hc hd)
  have hnumber := number_point negative whole hwhole
    (fun a ha => allDigits_digits d a (List.mem_of_mem_drop ha))
    (mt List.drop_eq_nil_iff.1 hlt.not_ge) htail.endsDigits (exponent?_getD htail)
  rw [List.take_append_drop, digitsValue_digits, List.length_drop, Nat.cast_sub hlt.le, zero_sub,
    neg_sub] at hnumber
  exact hnumber

/-- Zeros stand between the digits and the point. -/
theorem number_zeros_after (n : Nat) (hd : d ≠ 0) (htail : EndsNumber tail) :
    number negative (Text.ofChars (Format.digits d ++ List.replicate n '0' ++ ['.', '0']) ++ tail)
      whole = .ok (.float (Binary64.ofDecimal negative d n), tail) := by
  have hwhole : IsWhole (Format.digits d ++ List.replicate n '0') := by
    obtain ⟨c, cs, hdigits, hc, -⟩ := exists_digits d
    have hall := (allDigits_digits d).append (allDigits_zeros n)
    rw [hdigits] at hall ⊢
    exact isWhole_cons hall (hc hd)
  have hnumber := number_point negative whole hwhole (allDigits_zeros 1) (by decide)
    htail.endsDigits (exponent?_getD htail)
  have hvalue : digitsValue (Text.ofChars
      (Format.digits d ++ List.replicate n '0' ++ List.replicate 1 '0')) = d * 10 ^ (n + 1) := by
    rw [List.append_assoc, List.replicate_append_replicate, digitsValue_append_zeros,
      digitsValue_digits]
  have hexponent : (0 : Int) - (List.replicate 1 '0').length + (n + 1 : Nat) = n := by
    rw [List.length_replicate]
    omega
  rw [hvalue, Binary64.ofDecimal_mul_pow hd, hexponent] at hnumber
  exact hnumber

/-- A decimal in the positional form is read. -/
theorem number_positional {k : Int} (hd : d ≠ 0) (htail : EndsNumber tail) :
    number negative (Text.ofChars (Format.positional (Format.digits d)
      ((Format.digits d).length + k)) ++ tail) whole =
        .ok (.float (Binary64.ofDecimal negative d k), tail) := by
  rw [Format.positional]
  split_ifs with hpoint
  · rw [number_zeros_before negative whole _ htail]
    congr 4
    omega
  · have hlength : (Format.digits d).length ≠ 0 :=
      (List.length_pos_of_ne_nil Nat.toDigits_ne_nil).ne'
    dsimp only
    by_cases hk : k < 0
    · have hp : ((Format.digits d).length + k).toNat < (Format.digits d).length := by omega
      have hplaces : ((Format.digits d).drop ((Format.digits d).length + k).toNat).isEmpty =
          false := by
        rw [List.isEmpty_eq_false_iff]
        exact mt List.drop_eq_nil_iff.1 hp.not_ge
      rw [List.length_take_of_le hp.le, Nat.sub_self, List.replicate_zero, List.append_nil, hplaces,
        if_neg Bool.false_ne_true, number_point_among negative whole hd (by omega) hp htail]
      congr 4
      omega
    · obtain ⟨n, rfl⟩ := Int.eq_ofNat_of_zero_le (not_lt.1 hk)
      have hp : (((Format.digits d).length : Int) + n).toNat = (Format.digits d).length + n := by
        omega
      rw [hp, List.take_of_length_le (Nat.le_add_right _ _),
        List.drop_of_length_le (Nat.le_add_right _ _), Nat.add_sub_cancel_left,
        List.isEmpty_nil, if_pos rfl, number_zeros_after negative whole n hd htail]

theorem endsDigits_exponentPart (e : Int) (t : Text) :
    EndsDigits (Text.ofChars (Format.exponentPart e) ++ t) := by
  rintro c ⟨⟩
  rfl

theorem places_exponentPart (e : Int) (t : Text) :
    places (Text.ofChars (Format.exponentPart e) ++ t) =
      ([], Text.ofChars (Format.exponentPart e) ++ t) := by
  refine places_of_ne ?_
  rintro c ⟨⟩
  decide

/-- A decimal in the scientific form is read. -/
theorem number_scientific {k : Int} (hd : d ≠ 0) (htail : EndsNumber tail) :
    number negative (Text.ofChars (Format.scientific (Format.digits d)
      ((Format.digits d).length + k - 1)) ++ tail) whole =
        .ok (.float (Binary64.ofDecimal negative d k), tail) := by
  obtain ⟨e, he⟩ : ∃ e : Int, e = (Format.digits d).length + k - 1 := ⟨_, rfl⟩
  have hexponent := exponent?_exponentPart e htail.endsDigits
  have hends := endsDigits_exponentPart e tail
  have hall := allDigits_digits d
  have hvalue := digitsValue_digits d
  obtain ⟨c, cs, hdigits, hc, -⟩ := exists_digits d
  rw [← he]
  rw [hdigits] at hall hvalue he ⊢
  have hwhole : IsWhole [c] :=
    isWhole_cons (fun a ha => hall a (List.mem_append_left cs ha)) (hc hd)
  cases cs with
  | nil =>
    have hnumber := number_fractional negative whole hwhole hends (places_exponentPart e tail)
      (by rw [hexponent, Option.getD_some])
      (Or.inr (by rw [hexponent]; exact Option.some_ne_none _))
    have hk : e - (([] : Text).length : Int) = k := by
      rw [he]
      simp
    rw [List.append_nil, hvalue, hk] at hnumber
    rw [Format.scientific, Text.ofChars_cons, List.cons_append]
    exact hnumber
  | cons c' cs =>
    have hnumber := number_point negative whole hwhole
      (fun a ha => hall a (List.mem_cons_of_mem c ha)) (List.cons_ne_nil c' cs) hends
      (by rw [hexponent, Option.getD_some])
    have hk : e - ((c' :: cs).length : Int) = k := by
      rw [he, List.length_cons]
      omega
    rw [List.cons_append, List.nil_append, List.cons_append, List.nil_append, hvalue, hk] at hnumber
    rw [Format.scientific, Text.ofChars_append, List.append_assoc]
    · exact hnumber
    · simp

end Decimals

/-! ## Words and numbers -/

theorem afterWord?_append (word : String) (t : Text) :
    afterWord? word (Text.ofString word ++ t) = some t := by
  rw [afterWord?]
  induction Text.ofString word with
  | nil => rfl
  | cons c w ih => rw [List.cons_append, List.isPrefixOf?, beq_self_eq_true, if_pos rfl, ih]

theorem afterWord?_of_ne (word : String) {w : Char} {ws : List Char} (hword : word.toList = w :: ws)
    {c : CodePoint} (t : Text) (h : CodePoint.ofChar w ≠ c) : afterWord? word (c :: t) = none := by
  rw [afterWord?, Text.ofString, hword, Text.ofChars_cons, List.isPrefixOf?,
    beq_eq_false_iff_ne.2 h, if_neg Bool.false_ne_true]

/-- Words that start with different letters do not stand in each other's place. -/
theorem afterWord?_word (word other : String) {w v : Char} {ws vs : List Char}
    (hword : word.toList = w :: ws) (hother : other.toList = v :: vs) (h : w ≠ v) (t : Text) :
    afterWord? word (Text.ofString other ++ t) = none := by
  rw [Text.ofString, hother]
  exact afterWord?_of_ne word hword _ fun heq => h (CodePoint.ofChar_injective heq)

section Words

variable (tail : Text)

theorem atom_null : atom (Text.ofString "null" ++ tail) = .ok (.null, tail) := by
  rw [atom.eq_def, afterWord?_append]

theorem atom_true : atom (Text.ofString "true" ++ tail) = .ok (.bool true, tail) := by
  rw [atom.eq_def, afterWord?_word "null" "true" rfl rfl (by decide), afterWord?_append]

theorem atom_false : atom (Text.ofString "false" ++ tail) = .ok (.bool false, tail) := by
  rw [atom.eq_def, afterWord?_word "null" "false" rfl rfl (by decide),
    afterWord?_word "true" "false" rfl rfl (by decide), afterWord?_append]

theorem atom_nan : atom (Text.ofString "NaN" ++ tail) = .ok (.float .nan, tail) := by
  rw [atom.eq_def, afterWord?_word "null" "NaN" rfl rfl (by decide),
    afterWord?_word "true" "NaN" rfl rfl (by decide),
    afterWord?_word "false" "NaN" rfl rfl (by decide), afterWord?_append]

theorem atom_infinity (negative : Bool) :
    atom (Text.ofString (if negative then "-Infinity" else "Infinity") ++ tail) =
      .ok (.float (.infinity negative), tail) := by
  cases negative with
  | false =>
    rw [if_neg Bool.false_ne_true, atom.eq_def,
      afterWord?_word "null" "Infinity" rfl rfl (by decide),
      afterWord?_word "true" "Infinity" rfl rfl (by decide),
      afterWord?_word "false" "Infinity" rfl rfl (by decide),
      afterWord?_word "NaN" "Infinity" rfl rfl (by decide), afterWord?_append]
  | true =>
    rw [if_pos rfl, atom.eq_def, afterWord?_word "null" "-Infinity" rfl rfl (by decide),
      afterWord?_word "true" "-Infinity" rfl rfl (by decide),
      afterWord?_word "false" "-Infinity" rfl rfl (by decide),
      afterWord?_word "NaN" "-Infinity" rfl rfl (by decide),
      afterWord?_word "Infinity" "-Infinity" rfl rfl (by decide), afterWord?_append]

end Words

section Atoms

variable {c : CodePoint} {t s tail : Text}

/-- A letter that no number starts with. -/
theorem ne_of_isDigit {w : Char} (hw : w.isDigit = false) (hc : isDigit c = true) :
    CodePoint.ofChar w ≠ c := by
  rintro rfl
  rw [isDigit_ofChar, hw] at hc
  exact Bool.false_ne_true hc

/-- What starts with none of the words is a number. -/
theorem atom_eq_number (h : ∀ word ∈ ["null", "true", "false", "NaN", "Infinity", "-Infinity"],
    afterWord? word (c :: t) = none) :
    atom (c :: t) =
      if c = '-' then number true t (c :: t) else number false (c :: t) (c :: t) := by
  simp only [List.forall_mem_cons, List.not_mem_nil, false_imp_iff, implies_true, and_true] at h
  obtain ⟨hnull, htrue, hfalse, hnan, hinfinity, hminus⟩ := h
  rw [atom.eq_def, hnull, htrue, hfalse, hnan, hinfinity, hminus]

theorem atom_of_digit (hc : isDigit c = true) : atom (c :: t) = number false (c :: t) (c :: t) := by
  have hminus : c ≠ CodePoint.ofChar '-' := (ne_of_isDigit rfl hc).symm
  rw [atom_eq_number, if_neg hminus]
  simp only [List.forall_mem_cons, List.not_mem_nil, false_imp_iff, implies_true, and_true]
  exact ⟨afterWord?_of_ne "null" rfl t (ne_of_isDigit rfl hc),
    afterWord?_of_ne "true" rfl t (ne_of_isDigit rfl hc),
    afterWord?_of_ne "false" rfl t (ne_of_isDigit rfl hc),
    afterWord?_of_ne "NaN" rfl t (ne_of_isDigit rfl hc),
    afterWord?_of_ne "Infinity" rfl t (ne_of_isDigit rfl hc),
    afterWord?_of_ne "-Infinity" rfl t (ne_of_isDigit rfl hc)⟩

theorem afterWord?_minus_digit (hc : isDigit c = true) :
    afterWord? "-Infinity" (CodePoint.ofChar '-' :: c :: t) = none := by
  have hword : Text.ofString "-Infinity" =
      CodePoint.ofChar '-' :: CodePoint.ofChar 'I' :: Text.ofString "nfinity" := rfl
  have hI : CodePoint.ofChar 'I' ≠ c := ne_of_isDigit rfl hc
  rw [afterWord?, hword, List.isPrefixOf?, beq_self_eq_true, if_pos rfl, List.isPrefixOf?,
    beq_eq_false_iff_ne.2 hI, if_neg Bool.false_ne_true]

theorem atom_of_minus (hc : isDigit c = true) :
    atom (CodePoint.ofChar '-' :: c :: t) =
      number true (c :: t) (CodePoint.ofChar '-' :: c :: t) := by
  have hne : ∀ w : Char, w ≠ '-' → CodePoint.ofChar w ≠ CodePoint.ofChar '-' :=
    fun w hw heq => hw (CodePoint.ofChar_injective heq)
  rw [atom_eq_number, if_pos rfl]
  simp only [List.forall_mem_cons, List.not_mem_nil, false_imp_iff, implies_true, and_true]
  exact ⟨afterWord?_of_ne "null" rfl (c :: t) (hne 'n' (by decide)),
    afterWord?_of_ne "true" rfl (c :: t) (hne 't' (by decide)),
    afterWord?_of_ne "false" rfl (c :: t) (hne 'f' (by decide)),
    afterWord?_of_ne "NaN" rfl (c :: t) (hne 'N' (by decide)),
    afterWord?_of_ne "Infinity" rfl (c :: t) (hne 'I' (by decide)), afterWord?_minus_digit hc⟩

theorem exists_of_number {negative : Bool} {whole : Text} {r : Json × Text}
    (h : number negative s whole = .ok r) : ∃ c t, s = c :: t ∧ isDigit c = true := by
  cases s with
  | nil => cases h
  | cons c t =>
    refine ⟨c, t, rfl, ?_⟩
    by_contra hc
    rw [number, if_pos (by simpa using hc)] at h
    cases h

/-- A number is read with its sign. -/
theorem atom_of_number (negative : Bool) {v : Json}
    (h : ∀ whole, number negative s whole = .ok (v, tail)) :
    atom ((if negative then [CodePoint.ofChar '-'] else []) ++ s) = .ok (v, tail) := by
  obtain ⟨c, t, rfl, hc⟩ := exists_of_number (h [])
  cases negative with
  | true => exact (atom_of_minus hc).trans (h _)
  | false => exact (atom_of_digit hc).trans (h _)

/-- A printed integer is read. -/
theorem atom_integer {n : Int} (hlength : (Format.digits n.natAbs).length ≤ maxDigits)
    (htail : EndsNumber tail) :
    atom (Text.ofChars (Format.integer n) ++ tail) = .ok (.int n, tail) := by
  have hatom := atom_of_number (decide (n < 0))
    fun whole => number_integer _ whole (isWhole_digits n.natAbs) htail hlength
  rw [digitsValue_digits] at hatom
  rw [Format.integer]
  by_cases hn : n < 0
  · rw [if_pos hn]
    rw [decide_eq_true hn, if_pos rfl, if_pos rfl, Int.ofNat_natAbs_of_nonpos hn.le, neg_neg]
      at hatom
    exact hatom
  · rw [if_neg hn]
    rw [decide_eq_false hn, if_neg Bool.false_ne_true, if_neg Bool.false_ne_true,
      Int.natAbs_of_nonneg (not_lt.1 hn)] at hatom
    exact hatom

/-- A decimal is read in the form in which it is printed. -/
theorem number_decimal (d : Decimal) (negative : Bool) (whole : Text) (htail : EndsNumber tail) :
    number negative (Text.ofChars
      (if d.digits = 0 then "0.0".toList
      else if -4 < ((Format.digits d.digits).length + d.exponent : Int) ∧
          ((Format.digits d.digits).length + d.exponent : Int) ≤ 16 then
        Format.positional (Format.digits d.digits) ((Format.digits d.digits).length + d.exponent)
      else Format.scientific (Format.digits d.digits)
        ((Format.digits d.digits).length + d.exponent - 1)) ++ tail) whole =
      .ok (.float (Binary64.ofDecimal negative d.digits d.exponent), tail) := by
  split_ifs with hzero hpoint
  · have hnumber := number_point negative whole (isWhole_digits 0)
      (allDigits_zeros 1) (by decide) htail.endsDigits (exponent?_getD htail)
    have hvalue : digitsValue (Text.ofChars (Format.digits 0 ++ List.replicate 1 '0')) = 0 := by
      decide
    rw [hvalue, Binary64.ofDecimal_zero] at hnumber
    rw [hzero, Binary64.ofDecimal_zero]
    exact hnumber
  · exact number_positional negative whole hzero htail
  · exact number_scientific negative whole hzero htail

/-- A printed floating point number is read. -/
theorem atom_shortestChars (x : Binary64) (htail : EndsNumber tail) :
    atom (Text.ofChars (Format.shortestChars .json x) ++ tail) = .ok (.float x, tail) := by
  cases x with
  | nan => exact atom_nan tail
  | infinity negative =>
    have hatom := atom_infinity tail negative
    cases negative <;> exact hatom
  | finite negative m e h =>
    have hreads := Shortest.readsAs_decimal negative h
    rw [Shortest.readsAs, decide_eq_true_eq, Binary64.isNegative] at hreads
    rw [Format.shortestChars, Format.sign, Binary64.isNegative]
    -- of the shortest decimal only this matters that it reads back
    generalize Shortest.decimal (.finite negative m e h) = d at hreads ⊢
    have hatom := atom_of_number negative fun whole => number_decimal d negative whole htail
    rw [hreads] at hatom
    rw [Text.ofChars_append, List.append_assoc]
    cases negative <;> exact hatom

end Atoms

end Json
end ContainerDocs
