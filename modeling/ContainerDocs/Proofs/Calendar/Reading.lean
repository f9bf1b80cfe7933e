import ContainerDocs.Calendar.Reader
import ContainerDocs.Proofs.Json.Number
import ContainerDocs.Proofs.Text.Encoding
import Mathlib.Data.Nat.Digits.Defs

/-!
# Reading the parts of a moment

The parts of a moment are read off bytes: fields of digits, days with hyphens, times of day with
colons and a fraction, offsets with a sign. Each reader takes its own part from the front and leaves
what follows.

## Main definitions

* `Timestamp.bytes` — the bytes of characters.
* `Timestamp.IsField`, `Timestamp.value` — digits of a number, as many as are due, and the number.

## Main statements

* `Timestamp.digits?_bytes` — a field of digits is read.
* `Timestamp.dayLength_bytes`, `Timestamp.day?_bytes` — a day is read.
* `Timestamp.clock?_colon`, `Timestamp.clock?_last`, `Timestamp.clock?_point` — a time of day is
  read field by field.
* `Timestamp.offset?_bytes` — an offset is read.
-/

namespace ContainerDocs
namespace Timestamp

def bytes (cs : List Char) : Bytes := Encoding.bytesOf (Text.ofChars cs)

@[simp] theorem bytes_nil : bytes [] = [] := rfl

@[simp] theorem bytes_append (cs ds : List Char) : bytes (cs ++ ds) = bytes cs ++ bytes ds := by
  rw [bytes, Text.ofChars_append, Encoding.bytesOf_append]
  rfl

/-- An ASCII character is one byte. -/
theorem bytes_cons {c : Char} (h : c.toNat < 128) (cs : List Char) :
    bytes (c :: cs) = c.toUInt8 :: bytes cs := by
  have hcode : Encoding.encodeCode c.toNat = [c.toUInt8] := if_pos h
  rw [bytes, Text.ofChars_cons, Encoding.bytesOf_cons]
  exact congrArg (· ++ bytes cs) hcode

/-! ## Fields of digits -/

def IsField (count : Nat) (ds : List Char) : Prop := ds.length = count ∧ Json.AllDigits ds

def value (ds : List Char) : Nat := Nat.ofDigitChars 10 ds 0

theorem isField_padded {count n : Nat} (hcount : 0 < count) (hn : n < 10 ^ count) :
    IsField count (Format.padded count n) := by
  have hle : (Format.digits n).length ≤ count := Nat.toDigits_length 10 n count hcount hn
  refine ⟨?_, Json.allDigits_padded count n⟩
  rw [Format.padded, List.length_append, List.length_replicate]
  omega

@[simp] theorem value_padded (count n : Nat) : value (Format.padded count n) = n := by
  rw [value, ← Json.digitsValue_ofChars, Json.digitsValue_padded]

theorem ofDigitChars_lt {ds : List Char} (h : Json.AllDigits ds) (n : Nat) :
    Nat.ofDigitChars 10 ds n < (n + 1) * 10 ^ ds.length := by
  induction ds generalizing n with
  | nil => simp
  | cons c ds ih =>
    obtain ⟨hc, hds⟩ := List.forall_mem_cons.1 h
    have hhigh : c.toNat ≤ 57 := (Char.isDigit_iff_toNat.1 hc).2
    have hdigit : 10 * n + (c.toNat - 48) + 1 ≤ (n + 1) * 10 := by omega
    rw [Nat.ofDigitChars_cons, List.length_cons, Nat.pow_succ', ← Nat.mul_assoc]
    exact (ih hds _).trans_le (Nat.mul_le_mul_right _ hdigit)

theorem value_lt {ds : List Char} (h : Json.AllDigits ds) : value ds < 10 ^ ds.length := by
  simpa [value] using ofDigitChars_lt h 0

/-- Zeros at the end count as powers of ten. -/
theorem value_append_zeros (ds : List Char) (k : Nat) :
    value (ds ++ List.replicate k '0') = value ds * 10 ^ k := by
  rw [value, ← Json.digitsValue_ofChars, Json.digitsValue_append_zeros, Json.digitsValue_ofChars,
    value]

theorem toNat_lt_of_isDigit {c : Char} (h : c.isDigit = true) : c.toNat < 128 :=
  (Char.isDigit_iff_toNat.1 h).2.trans_lt (by decide)

theorem toNat_toUInt8 {c : Char} (h : c.isDigit = true) : c.toUInt8.toNat = c.toNat :=
  Encoding.toNat_ofNat_of_lt ((toNat_lt_of_isDigit h).trans (by decide))

theorem isDigitByte_toUInt8 {c : Char} (h : c.isDigit = true) : isDigitByte c.toUInt8 = true := by
  obtain ⟨hlow, hhigh⟩ := Char.isDigit_iff_toNat.1 h
  rw [isDigitByte, Bool.and_eq_true, decide_eq_true_eq, decide_eq_true_eq, UInt8.le_iff_toNat_le,
    UInt8.le_iff_toNat_le, toNat_toUInt8 h]
  exact ⟨hlow, hhigh⟩

theorem bytes_cons_digit {c : Char} (h : c.isDigit = true) (cs : List Char) :
    bytes (c :: cs) = c.toUInt8 :: bytes cs :=
  bytes_cons (toNat_lt_of_isDigit h) cs

theorem length_bytes {ds : List Char} (h : Json.AllDigits ds) : (bytes ds).length = ds.length := by
  induction ds with
  | nil => rfl
  | cons c ds ih =>
    obtain ⟨hc, hds⟩ := List.forall_mem_cons.1 h
    rw [bytes_cons_digit hc, List.length_cons, List.length_cons, ih hds]

theorem digits?_append {ds : List Char} (h : Json.AllDigits ds) (n : Nat) (rest : Bytes) :
    digits? ds.length n (bytes ds ++ rest) = some (Nat.ofDigitChars 10 ds n, rest) := by
  induction ds generalizing n with
  | nil => rfl
  | cons c ds ih =>
    obtain ⟨hc, hds⟩ := List.forall_mem_cons.1 h
    rw [bytes_cons_digit hc, List.cons_append, List.length_cons, digits?,
      if_pos (isDigitByte_toUInt8 hc), ih hds, Nat.ofDigitChars_cons, toNat_toUInt8 hc,
      Nat.mul_comm]
    rfl

/-- A field of digits is read. -/
theorem digits?_bytes {count : Nat} {ds : List Char} (h : IsField count ds) (rest : Bytes) :
    digits? count 0 (bytes ds ++ rest) = some (value ds, rest) := by
  rw [← h.1, digits?_append h.2]
  rfl

theorem isDigitByte_peek {count : Nat} {ds : List Char} (h : IsField (count + 1) ds)
    (rest : Bytes) : isDigitByte (peek (bytes ds ++ rest)) = true := by
  obtain ⟨c, ds, rfl⟩ := List.exists_cons_of_ne_nil (List.ne_nil_of_length_eq_add_one h.1)
  have hc := h.2 c List.mem_cons_self
  rw [bytes_cons_digit hc]
  exact isDigitByte_toUInt8 hc

theorem peek_ne {count : Nat} {ds : List Char} (h : IsField (count + 1) ds) {b : UInt8}
    (hb : isDigitByte b = false) (rest : Bytes) : peek (bytes ds ++ rest) ≠ b := by
  rintro rfl
  rw [isDigitByte_peek h] at hb
  cases hb

/-! ## Days -/

theorem peek_drop (s : Bytes) (i : Nat) : peek (s.drop i) = s.getD i 0 := by
  rw [peek, List.headD_eq_head?_getD, List.head?_drop, List.getD_eq_getElem?_getD]

def dayBytes (year month day : List Char) (rest : Bytes) : Bytes :=
  bytes year ++ '-'.toUInt8 :: (bytes month ++ '-'.toUInt8 :: (bytes day ++ rest))

section Days

variable {year month day : List Char} (hyear : IsField 4 year) (hmonth : IsField 2 month)
  (hday : IsField 2 day)
include hyear hmonth hday

theorem length_dayBytes (rest : Bytes) :
    (dayBytes year month day rest).length = rest.length + 10 := by
  simp only [dayBytes, List.length_append, List.length_cons, length_bytes hyear.2,
    length_bytes hmonth.2, length_bytes hday.2, hyear.1, hmonth.1, hday.1]
  omega

theorem drop_dayBytes (rest : Bytes) : (dayBytes year month day rest).drop 10 = rest := by
  have hsplit : dayBytes year month day rest =
      (bytes year ++ '-'.toUInt8 :: (bytes month ++ '-'.toUInt8 :: bytes day)) ++ rest := by
    simp [dayBytes]
  rw [hsplit, List.drop_left']
  simp [length_bytes hyear.2, length_bytes hmonth.2, length_bytes hday.2, hyear.1, hmonth.1, hday.1]

theorem dayLength_bytes (rest : Bytes) : dayLength (dayBytes year month day rest) = some 10 := by
  have hlength := length_dayBytes hyear hmonth hday rest
  have hyear' : (dayBytes year month day rest).drop 4 =
      '-'.toUInt8 :: (bytes month ++ '-'.toUInt8 :: (bytes day ++ rest)) := by
    rw [dayBytes, List.drop_left' ((length_bytes hyear.2).trans hyear.1)]
  have hhyphen : (dayBytes year month day rest).getD 4 0 = '-'.toUInt8 := by
    rw [← peek_drop, hyear']
    rfl
  have hmonth' : (dayBytes year month day rest).getD 5 0 ≠ 'W'.toUInt8 := by
    rw [← peek_drop, ← List.drop_drop (i := 1), hyear']
    exact peek_ne hmonth (by decide) _
  rw [dayLength]
  dsimp only
  rw [hlength, if_neg (by omega), if_neg (by omega), if_pos hhyphen, if_neg hmonth']

theorem day?_bytes (rest : Bytes) :
    day? 10 (dayBytes year month day rest) = some ⟨value year, value month, value day⟩ := by
  have hmonth' := peek_ne hmonth (b := 'W'.toUInt8) (by decide)
    ('-'.toUInt8 :: (bytes day ++ rest))
  rw [day?, dayBytes, digits?_bytes hyear]
  dsimp only [bind, Option.bind]
  have hhyphen : ∀ s : Bytes, peek ('-'.toUInt8 :: s) = '-'.toUInt8 := fun _ => rfl
  simp only [hhyphen, decide_true, if_true, List.drop_succ_cons, List.drop_zero, if_neg hmonth',
    digits?_bytes hmonth, digits?_bytes hday, afterHyphen?]
  rfl

end Days

/-! ## Times of day -/

section Clock

variable {stop remaining : Nat} {colons : Option Bool} {fields : List Nat} {ds : List Char}
  (hds : IsField 2 ds)
include hds

/-- A field with a colon behind it is followed by a further field. -/
theorem clock?_colon (hcolons : colons.getD true = true) {rest : Bytes}
    (hlong : stop < rest.length) :
    clock? stop colons fields (remaining + 1) (bytes ds ++ ':'.toUInt8 :: rest) =
      clock? stop (some true) (fields ++ [value ds]) remaining rest := by
  have hmark : colons.getD (decide (peek (':'.toUInt8 :: rest) = ':'.toUInt8)) = true := by
    cases colons with
    | none => rfl
    | some c => exact hcolons
  have hafter : afterField? stop true (':'.toUInt8 :: rest) = some (.field rest) := by
    rw [afterField?, if_neg (by rw [List.length_cons]; omega)]
    rfl
  rw [clock?, digits?_bytes hds]
  dsimp only [bind, Option.bind]
  rw [hmark, hafter]

/-- A field without anything behind it is the last one. -/
theorem clock?_last {rest : Bytes} (hshort : rest.length ≤ stop + 1) :
    clock? stop colons fields remaining (bytes ds ++ rest) =
      some ⟨fields ++ [value ds], 0, peek rest ≠ 0⟩ := by
  have hafter : ∀ c, afterField? stop c rest = some (.ends (peek rest ≠ 0)) := fun _ =>
    if_pos hshort
  cases remaining <;>
  · rw [clock?, digits?_bytes hds]
    dsimp only [bind, Option.bind]
    rw [hafter]
    rfl

/-- A field with a point behind it is followed by a fraction. -/
theorem clock?_point {rest : Bytes} (hlong : stop < rest.length) :
    clock? stop colons fields remaining (bytes ds ++ '.'.toUInt8 :: rest) =
      fraction? stop (fields ++ [value ds]) rest := by
  have hafter : ∀ c, afterField? stop c ('.'.toUInt8 :: rest) = some (.fraction rest) := by
    intro c
    rw [afterField?, if_neg (by rw [List.length_cons]; omega)]
    cases c <;> rfl
  cases remaining <;>
  · rw [clock?, digits?_bytes hds]
    dsimp only [bind, Option.bind]
    rw [hafter]

end Clock

/-- A fraction of at most six digits counts as microseconds. -/
theorem fraction?_bytes {fields : List Nat} {ds : List Char} (hds : Json.AllDigits ds)
    (hlength : ds.length ≤ 6) {zone : Bytes} (hzone : isDigitByte (peek zone) = false) :
    fraction? zone.length fields (bytes ds ++ zone) =
      some ⟨fields, value ds * 10 ^ (6 - ds.length), peek zone ≠ 0⟩ := by
  have hmin : min 6 ((bytes ds ++ zone).length - zone.length) = ds.length := by
    rw [List.length_append, Nat.add_sub_cancel, length_bytes hds]
    omega
  have hzone' : zone.dropWhile isDigitByte = zone := by
    cases zone with
    | nil => rfl
    | cons b rest => exact List.dropWhile_cons_of_neg (by simpa [peek] using hzone)
  rw [fraction?, hmin, digits?_append hds]
  dsimp only [bind, Option.bind]
  rw [hzone']
  rfl

/-- An offset of whole minutes is nothing or at least a second. -/
theorem offset_total (hour minute : Nat) :
    (if Clock.total ⟨[hour, minute], 0, false⟩ < microseconds then 0
      else (Clock.total ⟨[hour, minute], 0, false⟩ : Int)) =
      ((hour * 3600 + minute * 60) * microseconds : Nat) := by
  have htotal : Clock.total ⟨[hour, minute], 0, false⟩ =
      (hour * 3600 + minute * 60) * microseconds := by
    simp [Clock.total]
  rw [htotal]
  split_ifs with hsmall
  · have hzero : hour * 3600 + minute * 60 = 0 := by
      by_contra hne
      exact absurd hsmall (Nat.le_mul_of_pos_left _ (Nat.pos_of_ne_zero hne)).not_gt
    rw [hzero, Nat.zero_mul]
    rfl
  · rfl

/-- An offset is read. -/
theorem offset?_bytes {sign : Char} (hsign : sign = '+' ∨ sign = '-') {hour minute : List Char}
    (hhour : IsField 2 hour) (hminute : IsField 2 minute) :
    let n : Nat := (value hour * 3600 + value minute * 60) * microseconds
    offset? (sign.toUInt8 :: (bytes hour ++ ':'.toUInt8 :: bytes minute)) =
      some (if sign = '-' then -(n : Int) else n) := by
  intro n
  have hlast : clock? 0 (some true) [value hour] 1 (bytes minute ++ []) = some ⟨_, 0, false⟩ :=
    clock?_last hminute (Nat.zero_le _)
  have hclock : clock? 0 none [] 2 (bytes hour ++ ':'.toUInt8 :: bytes minute) =
      some ⟨[value hour, value minute], 0, false⟩ := by
    rw [List.append_nil] at hlast
    rw [clock?_colon hhour rfl (by rw [length_bytes hminute.2, hminute.1]; decide)]
    exact hlast
  have hne : sign.toUInt8 ≠ 'Z'.toUInt8 := by
    obtain rfl | rfl := hsign <;> decide
  have hletter : ∀ s, ¬peek (sign.toUInt8 :: s) = 'Z'.toUInt8 := fun _ => hne
  rw [offset?]
  dsimp only
  rw [if_neg (hletter _), List.drop_succ_cons, List.drop_zero, hclock]
  dsimp only [bind, Option.bind]
  rw [if_neg Bool.false_ne_true, offset_total]
  obtain rfl | rfl := hsign <;> rfl

end Timestamp
end ContainerDocs
