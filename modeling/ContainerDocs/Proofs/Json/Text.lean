import ContainerDocs.Json.Printer
import ContainerDocs.Json.Reader
import ContainerDocs.Proofs.Text.CodePoint

/-!
# Printed texts read back

A text is printed with escapes and read as written units, which are put together again. The two
halves of a surrogate pair are printed like the code point that they make up together, so a text is
read back up to joining the halves that stand next to each other.

## Main definitions

* `Text.joined` — a text with the halves of surrogate pairs joined.
* `Json.writtenUnits` — the units that a code point is written as.

## Main statements

* `Text.joined_of_forall` — joining leaves a text without halves alone.
* `Json.units_escapeCode` — the written form of a code point is read as its units.
* `Json.assemble_writtenUnits` — the units of a text make up the joined text.
* `Json.textBody_escaped` — a printed text is read as the joined text.
-/

namespace ContainerDocs

/-! ## Surrogate pairs -/

namespace CodePoint

def isHigh (c : CodePoint) : Bool := 0xD800 ≤ c.val && c.val ≤ 0xDBFF

def isLow (c : CodePoint) : Bool := 0xDC00 ≤ c.val && c.val ≤ 0xDFFF

/-- The code point that two halves of a surrogate pair make up. -/
def ofPair (high low : CodePoint) : CodePoint :=
  ofNat (0x10000 + (high.val - 0xD800) * 0x400 + (low.val - 0xDC00))

theorem ofNat_val (c : CodePoint) : ofNat c.val = c := by
  rw [ofNat, dif_pos c.isLt]

theorem isHigh_iff {c : CodePoint} : c.isHigh = true ↔ 0xD800 ≤ c.val ∧ c.val ≤ 0xDBFF := by
  simp [isHigh]

theorem isLow_iff {c : CodePoint} : c.isLow = true ↔ 0xDC00 ≤ c.val ∧ c.val ≤ 0xDFFF := by
  simp [isLow]

end CodePoint

namespace Text

/-- The text with the halves of surrogate pairs that stand next to each other joined. -/
def joined : Text → Text
  | [] => []
  | [c] => [c]
  | c :: d :: rest =>
    if c.isHigh && d.isLow then CodePoint.ofPair c d :: joined rest else c :: joined (d :: rest)

theorem joined_of_forall {t : Text} (h : ∀ c ∈ t, c.isHalf = false) : t.joined = t := by
  induction t using joined.induct with
  | case1 => rfl
  | case2 c => rfl
  | case3 c d rest hpair ih =>
    have hc := h c List.mem_cons_self
    simp only [CodePoint.isHalf, CodePoint.isHigh, CodePoint.isLow, Bool.and_eq_true,
      decide_eq_true_eq, Bool.and_eq_false_iff, decide_eq_false_iff_not] at hpair hc
    omega
  | case4 c d rest hpair ih =>
    rw [joined, if_neg hpair, ih fun a ha => h a (List.mem_cons_of_mem c ha)]

end Text

namespace Json

/-! ## Escapes by number -/

theorem hexDigit?_digitChar :
    ∀ d < 16, hexDigit? (CodePoint.ofChar (Nat.digitChar d)) = some d := by
  decide

/-- The hexadecimal digits of a number of 16 bits. -/
theorem hex_four {n : Nat} (hn : n < 0x10000) :
    Quoted.hex 4 n = [Nat.digitChar (n / 16 / 16 / 16), Nat.digitChar (n / 16 / 16 % 16),
      Nat.digitChar (n / 16 % 16), Nat.digitChar (n % 16)] := by
  have hone : ∀ k, k < 16 → Nat.toDigits 16 k = [Nat.digitChar k] := fun k hk =>
    Nat.toDigits_of_lt_base hk
  have hmore : ∀ k, ¬ k < 16 →
      Nat.toDigits 16 k = Nat.toDigits 16 (k / 16) ++ [Nat.digitChar (k % 16)] := fun k hk =>
    Nat.toDigits_of_base_le (by decide) (by omega)
  rw [Quoted.hex]
  by_cases h₁ : n < 16
  · rw [hone n h₁, Nat.mod_eq_of_lt h₁, Nat.div_eq_of_lt h₁]
    rfl
  rw [hmore n h₁]
  by_cases h₂ : n / 16 < 16
  · rw [hone _ h₂, Nat.mod_eq_of_lt h₂, Nat.div_eq_of_lt h₂]
    rfl
  rw [hmore _ h₂]
  by_cases h₃ : n / 16 / 16 < 16
  · rw [hone _ h₃, Nat.mod_eq_of_lt h₃, Nat.div_eq_of_lt h₃]
    rfl
  rw [hmore _ h₃, hone (n / 16 / 16 / 16) (by omega)]
  rfl

/-! ## Reading the units of a text -/

/-- Whether a code point stands in a printed text by itself or with a short escape. -/
def IsPlain (c : CodePoint) : Prop :=
  (32 ≤ c.val ∧ c.val < 127) ∨ c.val = 8 ∨ c.val = 9 ∨ c.val = 10 ∨ c.val = 12 ∨ c.val = 13

instance (c : CodePoint) : Decidable (IsPlain c) := by
  unfold IsPlain
  infer_instance

def writtenUnits (c : CodePoint) : List TextUnit :=
  if IsPlain c then [.plain c]
  else if c.val < 0x10000 then [.numbered c.val]
  else
    [.numbered (0xD800 + (c.val - 0x10000) / 0x400), .numbered (0xDC00 + (c.val - 0x10000) % 0x400)]

variable {opening s rest : Text} {us : List TextUnit}

/-- A code point that is neither a quote nor a backslash stands for itself. -/
theorem units_plain {c : CodePoint} (hquote : c ≠ CodePoint.ofChar '"')
    (hescape : c ≠ CodePoint.ofChar '\\') (hc : 32 ≤ c.val) (h : units opening s = .ok (us, rest)) :
    units opening (c :: s) = .ok (.plain c :: us, rest) := by
  rw [units.eq_def]
  dsimp only
  rw [if_neg hquote, if_neg hescape, if_neg (by omega), h]
  rfl

/-- A letter after a backslash stands for a code point. -/
theorem units_short {e : Char} {c : CodePoint} (he : e ≠ 'u')
    (hc : shortEscape? (CodePoint.ofChar e) = some c) (h : units opening s = .ok (us, rest)) :
    units opening (Text.ofChars ['\\', e] ++ s) = .ok (.plain c :: us, rest) := by
  have hu : CodePoint.ofChar e ≠ CodePoint.ofChar 'u' :=
    fun heq => he (CodePoint.ofChar_injective heq)
  rw [Text.ofChars_cons, Text.ofChars_cons, Text.ofChars_nil, List.cons_append, List.cons_append,
    List.nil_append, units.eq_def]
  dsimp only
  rw [if_neg (by decide), if_pos rfl, if_neg hu, hc]
  dsimp only
  rw [h]
  rfl

/-- Four hexadecimal digits after a backslash and a letter are a number. -/
theorem units_codeEscape {n : Nat} (hn : n < 0x10000) (h : units opening s = .ok (us, rest)) :
    units opening (Text.ofChars (codeEscape n) ++ s) = .ok (.numbered n :: us, rest) := by
  cases s with
  | nil => cases h
  | cons d s =>
    have hvalue :
        ((n / 16 / 16 / 16 * 16 + n / 16 / 16 % 16) * 16 + n / 16 % 16) * 16 + n % 16 = n := by
      omega
    rw [codeEscape, hex_four hn]
    simp only [Text.ofChars_cons, Text.ofChars_nil, List.cons_append, List.nil_append]
    rw [units.eq_def]
    dsimp only
    rw [if_neg (by decide), if_pos rfl, if_pos rfl,
      hexDigit?_digitChar (n / 16 / 16 / 16) (by omega),
      hexDigit?_digitChar (n / 16 / 16 % 16) (by omega),
      hexDigit?_digitChar (n / 16 % 16) (by omega), hexDigit?_digitChar (n % 16) (by omega)]
    dsimp only
    rw [h, hvalue]
    rfl

theorem val_ne_of_ne {c : CodePoint} {w : Char} (h : c ≠ CodePoint.ofChar w) : c.val ≠ w.toNat := by
  rintro heq
  refine h ?_
  obtain ⟨n, hn⟩ := c
  subst heq
  rfl

theorem not_isPlain {c : CodePoint} (hn : c ≠ CodePoint.ofChar '\n')
    (hr : c ≠ CodePoint.ofChar '\r') (ht : c ≠ CodePoint.ofChar '\t') (hb : c.val ≠ 8)
    (hf : c.val ≠ 12) (hprint : ¬ (32 ≤ c.val ∧ c.val < 127)) : ¬ IsPlain c := by
  have hn' : c.val ≠ 10 := val_ne_of_ne hn
  have hr' : c.val ≠ 13 := val_ne_of_ne hr
  have ht' : c.val ≠ 9 := val_ne_of_ne ht
  rw [IsPlain]
  omega

/-- A code point is written as a letter after a backslash, as itself or by one or two numbers. -/
theorem escapeCode_cases (c : CodePoint) :
    (∃ e, escapeCode c = ['\\', e] ∧ e ≠ 'u' ∧ shortEscape? (CodePoint.ofChar e) = some c ∧
      IsPlain c) ∨
    (escapeCode c = [c.toCharLossy] ∧ c ≠ CodePoint.ofChar '"' ∧ c ≠ CodePoint.ofChar '\\' ∧
      32 ≤ c.val ∧ c.val < 127) ∨
    (escapeCode c = codeEscape c.val ∧ c.val < 0x10000 ∧ ¬ IsPlain c) ∨
    (escapeCode c = codeEscape (0xD800 + (c.val - 0x10000) / 0x400) ++
      codeEscape (0xDC00 + (c.val - 0x10000) % 0x400) ∧ 0x10000 ≤ c.val ∧ ¬ IsPlain c) := by
  fun_cases escapeCode c with
  | case1 hquote => exact .inl ⟨'"', rfl, by decide, by rw [hquote]; rfl, by rw [hquote]; decide⟩
  | case2 _ hslash => exact .inl ⟨'\\', rfl, by decide, by rw [hslash]; rfl, by rw [hslash]; decide⟩
  | case3 _ _ hn => exact .inl ⟨'n', rfl, by decide, by rw [hn]; rfl, by rw [hn]; decide⟩
  | case4 _ _ _ hr => exact .inl ⟨'r', rfl, by decide, by rw [hr]; rfl, by rw [hr]; decide⟩
  | case5 _ _ _ _ ht => exact .inl ⟨'t', rfl, by decide, by rw [ht]; rfl, by rw [ht]; decide⟩
  | case6 _ _ _ _ _ hb =>
    exact .inl ⟨'b', rfl, by decide, by rw [← c.ofNat_val, hb]; rfl, .inr (.inl hb)⟩
  | case7 _ _ _ _ _ _ hf =>
    exact .inl ⟨'f', rfl, by decide, by rw [← c.ofNat_val, hf]; rfl, by rw [IsPlain]; omega⟩
  | case8 hquote hslash _ _ _ _ _ hprint => exact .inr (.inl ⟨rfl, hquote, hslash, hprint⟩)
  | case9 _ _ hn hr ht hb hf hprint hsmall =>
    exact .inr (.inr (.inl ⟨rfl, hsmall, not_isPlain hn hr ht hb hf hprint⟩))
  | case10 _ _ hn hr ht hb hf hprint hsmall =>
    exact .inr (.inr (.inr ⟨rfl, Nat.le_of_not_lt hsmall, not_isPlain hn hr ht hb hf hprint⟩))

/-- The written form of a code point is read as its units. -/
theorem units_escapeCode (c : CodePoint) (h : units opening s = .ok (us, rest)) :
    units opening (Text.ofChars (escapeCode c) ++ s) = .ok (writtenUnits c ++ us, rest) := by
  have hlt := c.isLt
  rcases escapeCode_cases c with ⟨e, hc, he, hescape, hplain⟩ | ⟨hc, hquote, hslash, hprint⟩ |
    ⟨hc, hsmall, hplain⟩ | ⟨hc, hlarge, hplain⟩ <;> rw [hc, writtenUnits]
  · rw [if_pos hplain]
    exact units_short he hescape h
  · have hhalf : c.isHalf = false := by
      rw [CodePoint.isHalf, ← Bool.not_eq_true, Bool.and_eq_true, decide_eq_true_eq,
        decide_eq_true_eq]
      omega
    rw [if_pos (.inl hprint), Text.ofChars_cons, CodePoint.ofChar_toCharLossy hhalf]
    exact units_plain hquote hslash hprint.1 h
  · rw [if_neg hplain, if_pos hsmall]
    exact units_codeEscape hsmall h
  · rw [if_neg hplain, if_neg (Nat.not_lt.2 hlarge), Text.ofChars_append, List.append_assoc]
    exact units_codeEscape (by omega) (units_codeEscape (by omega) h)

theorem units_escaped (t : Text) :
    units opening (Text.ofChars (t.flatMap escapeCode) ++ CodePoint.ofChar '"' :: rest) =
      .ok (t.flatMap writtenUnits, rest) := by
  induction t with
  | nil => rw [List.flatMap_nil, Text.ofChars_nil, List.nil_append, units.eq_def]; rfl
  | cons c t ih =>
    rw [List.flatMap_cons, List.flatMap_cons, Text.ofChars_append, List.append_assoc]
    exact units_escapeCode c ih

/-! ## Putting units together -/

/-- Whether two numbered units are the halves of a surrogate pair. -/
def IsPair (n m : Nat) : Prop := 0xD800 ≤ n ∧ n ≤ 0xDBFF ∧ 0xDC00 ≤ m ∧ m ≤ 0xDFFF

theorem assemble_pair {n m : Nat} (h : IsPair n m) :
    assemble (.numbered n :: .numbered m :: us) =
      CodePoint.ofNat (0x10000 + (n - 0xD800) * 0x400 + (m - 0xDC00)) :: assemble us :=
  if_pos h

theorem assemble_numbered {n : Nat} (h : ∀ m, us.head? = some (.numbered m) → ¬ IsPair n m) :
    assemble (.numbered n :: us) = CodePoint.ofNat n :: assemble us := by
  rcases us with - | ⟨- | m, us⟩
  · rfl
  · rfl
  · exact if_neg (h m rfl)

/-- The units of a code point stand for it, unless it is the first half of a pair and the second
half follows. -/
theorem assemble_writtenUnits_append {c : CodePoint}
    (h : ∀ m, us.head? = some (.numbered m) → ¬ IsPair c.val m) :
    assemble (writtenUnits c ++ us) = c :: assemble us := by
  have hlt := c.isLt
  rw [writtenUnits]
  by_cases hplain : IsPlain c
  · rw [if_pos hplain]
    rfl
  rw [if_neg hplain]
  by_cases hsmall : c.val < 0x10000
  · rw [if_pos hsmall, List.singleton_append, assemble_numbered h, CodePoint.ofNat_val]
  · have hpair :
        IsPair (0xD800 + (c.val - 0x10000) / 0x400) (0xDC00 + (c.val - 0x10000) % 0x400) := by
      rw [IsPair]
      omega
    have hval : 0x10000 + (0xD800 + (c.val - 0x10000) / 0x400 - 0xD800) * 0x400 +
        (0xDC00 + (c.val - 0x10000) % 0x400 - 0xDC00) = c.val := by omega
    rw [if_neg hsmall, List.cons_append, List.singleton_append, assemble_pair hpair, hval,
      CodePoint.ofNat_val]

/-- Units that start with the second half of a pair are those of this half. -/
theorem val_of_head?_writtenUnits {c : CodePoint} {m : Nat}
    (h : (writtenUnits c ++ us).head? = some (.numbered m)) (hm : 0xDC00 ≤ m) : m = c.val := by
  have hlt := c.isLt
  rw [writtenUnits] at h
  split_ifs at h with hplain hsmall
  · cases h
  · cases h
    rfl
  · cases h
    omega

theorem writtenUnits_of_half {c : CodePoint} (hlow : 0xD800 ≤ c.val) (hhigh : c.val ≤ 0xDFFF) :
    writtenUnits c = [.numbered c.val] := by
  have hplain : ¬ IsPlain c := by
    rw [IsPlain]
    omega
  rw [writtenUnits, if_neg hplain, if_pos (by omega)]

/-- The units of a text make up the joined text. -/
theorem assemble_writtenUnits (t : Text) : assemble (t.flatMap writtenUnits) = t.joined := by
  induction t using Text.joined.induct with
  | case1 => rfl
  | case2 c =>
    rw [List.flatMap_cons, assemble_writtenUnits_append (by simp)]
    rfl
  | case3 c d rest hpair ih =>
    rw [Text.joined, if_pos hpair]
    rw [Bool.and_eq_true, CodePoint.isHigh_iff, CodePoint.isLow_iff] at hpair
    have hunits : (c :: d :: rest).flatMap writtenUnits =
        .numbered c.val :: .numbered d.val :: rest.flatMap writtenUnits := by
      rw [List.flatMap_cons, List.flatMap_cons, writtenUnits_of_half (by omega) (by omega),
        writtenUnits_of_half (by omega) (by omega)]
      rfl
    rw [hunits, assemble_pair ⟨hpair.1.1, hpair.1.2, hpair.2⟩, ih]
    rfl
  | case4 c d rest hpair ih =>
    rw [Text.joined, if_neg hpair, List.flatMap_cons, assemble_writtenUnits_append, ih]
    intro m hm hpair'
    obtain ⟨hlow, hhigh, hm'⟩ := hpair'
    rw [List.flatMap_cons] at hm
    obtain rfl := val_of_head?_writtenUnits hm hm'.1
    refine hpair ?_
    rw [Bool.and_eq_true, CodePoint.isHigh_iff, CodePoint.isLow_iff]
    exact ⟨⟨hlow, hhigh⟩, hm'⟩

/-- A printed text is read as the joined text. -/
theorem textBody_escaped (t : Text) :
    textBody opening (Text.ofChars (t.flatMap escapeCode) ++ CodePoint.ofChar '"' :: rest) =
      .ok (t.joined, rest) := by
  rw [textBody, units_escaped]
  exact congrArg (fun u => Except.ok (u, rest)) (assemble_writtenUnits t)

end Json
end ContainerDocs
