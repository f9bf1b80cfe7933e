import ContainerDocs.Proofs.Calendar.Reading

/-!
# Written moments

A moment is written as a day, the letter `T`, a time of day with or without a fraction, and an
offset from universal time. Reports may write any number of digits in a fraction, and universal time
as a letter. What is read is the moment with its fraction cut to microseconds, and its own written
form is read as the same moment.

## Main definitions

* `Timestamp.WrittenOffset`, `Timestamp.Written` — an offset and a moment as they are written.
* `Timestamp.Written.chars`, `Timestamp.Written.moment` — the characters and the moment.
* `Timestamp.Written.printed` — the written form that the moment is printed in.

## Main statements

* `Timestamp.Written.normalize_chars` — zones are spelt as offsets, and fractions are cut.
* `Timestamp.Written.fields?_normal` — the parts of a moment are read.
* `Timestamp.Written.toChars_moment` — the form that a moment is printed in.
* `Timestamp.ofReport_written` — a written moment is read, and so is the form that it is printed in.
-/

namespace ContainerDocs
namespace Timestamp

/-! ## Written forms -/

/-- An offset as it is written: a letter for universal time, or a sign with hours and minutes. -/
inductive WrittenOffset where
  | universal
  | signed (isNegative : Bool) (hour minute : Nat)

namespace WrittenOffset

def sign : WrittenOffset → Char
  | .signed true _ _ => '-'
  | _ => '+'

def hour : WrittenOffset → Nat
  | .universal => 0
  | .signed _ hour _ => hour

def minute : WrittenOffset → Nat
  | .universal => 0
  | .signed _ _ minute => minute

def spelt (o : WrittenOffset) : List Char :=
  o.sign :: (Format.padded 2 o.hour ++ ':' :: Format.padded 2 o.minute)

def chars : WrittenOffset → List Char
  | .universal => ['Z']
  | o => o.spelt

def seconds (o : WrittenOffset) : Int :=
  let n : Int := (o.hour * 3600 + o.minute * 60 : Nat)
  if o.sign = '-' then -n else n

def IsValid (o : WrittenOffset) : Prop := o.hour < 24 ∧ o.minute < 60

instance (o : WrittenOffset) : Decidable o.IsValid := by
  unfold IsValid
  infer_instance

theorem sign_eq (o : WrittenOffset) : o.sign = '+' ∨ o.sign = '-' := by
  obtain - | ⟨- | -, hour, minute⟩ := o
  · exact .inl rfl
  · exact .inl rfl
  · exact .inr rfl

theorem natAbs_seconds (o : WrittenOffset) :
    o.seconds.natAbs = o.hour * 3600 + o.minute * 60 := by
  rw [seconds]
  split_ifs <;> omega

end WrittenOffset

/-- A moment as it is written, with the digits of its fraction, which is absent without any. -/
structure Written where
  date : Date
  hour : Nat
  minute : Nat
  second : Nat
  fraction : List Char
  offset : WrittenOffset

namespace Written

/-- The day exists, the time of day and the offset are in their ranges, and the fraction has digits
only. -/
structure IsValid (w : Written) : Prop where
  date : w.date.IsValid
  hour : w.hour < 24
  minute : w.minute < 60
  second : w.second < 60
  fraction : Json.AllDigits w.fraction
  offset : w.offset.IsValid

instance (w : Written) : Decidable w.IsValid :=
  decidable_of_iff (w.date.IsValid ∧ w.hour < 24 ∧ w.minute < 60 ∧ w.second < 60 ∧
      w.fraction.all Char.isDigit = true ∧ w.offset.IsValid)
    ⟨fun ⟨date, hour, minute, second, fraction, offset⟩ =>
      ⟨date, hour, minute, second, List.all_eq_true.1 fraction, offset⟩,
      fun h => ⟨h.date, h.hour, h.minute, h.second, List.all_eq_true.2 h.fraction, h.offset⟩⟩

def clockChars (w : Written) : List Char :=
  Format.padded 2 w.hour ++
    ':' :: (Format.padded 2 w.minute ++ ':' :: Format.padded 2 w.second)

/-- The digits of a fraction behind a point, nothing without digits. -/
def pointed (digits : List Char) : List Char := if digits = [] then [] else '.' :: digits

def start (w : Written) : List Char := dayText 4 w.date ++ 'T' :: w.clockChars

def chars (w : Written) : List Char := w.start ++ (pointed w.fraction ++ w.offset.chars)

/-- The characters with a sign in the offset and at most six digits in the fraction. -/
def normal (w : Written) : List Char :=
  w.start ++ (pointed (w.fraction.take 6) ++ w.offset.spelt)

/-- The first six digits of the fraction, with zeros behind a shorter one. -/
def microsecond (w : Written) : Nat := value ((w.fraction ++ List.replicate 6 '0').take 6)

/-- The moment with the fraction cut to microseconds. -/
def moment (w : Written) : Timestamp :=
  ⟨w.date, w.hour, w.minute, w.second, w.microsecond, some (w.offset.seconds * microseconds)⟩

end Written

/-! ## Spelling of zones and cutting of fractions -/

theorem spellZones_append (t u : Text) : spellZones (t ++ u) = spellZones t ++ spellZones u :=
  List.flatMap_append

theorem spellZones_ofChars {cs : List Char} (h : 'Z' ∉ cs) :
    spellZones (Text.ofChars cs) = Text.ofChars cs := by
  induction cs with
  | nil => rfl
  | cons c cs ih =>
    obtain ⟨hc, hcs⟩ := not_or.1 (mt List.mem_cons.2 h)
    have hne : CodePoint.ofChar c ≠ 'Z' := fun h => hc (CodePoint.ofChar_injective h).symm
    rw [spellZones, Text.ofChars_cons, List.flatMap_cons, if_neg hne]
    exact congrArg (CodePoint.ofChar c :: ·) (ih hcs)

theorem not_mem_padded {c : Char} (h : c.isDigit = false) (width n : Nat) :
    c ∉ Format.padded width n := by
  intro hc
  rw [Json.allDigits_padded width n c hc] at h
  cases h

theorem spellZones_offset (o : WrittenOffset) :
    spellZones (Text.ofChars o.chars) = Text.ofChars o.spelt := by
  cases o with
  | universal => rfl
  | signed isNegative hour minute =>
    refine spellZones_ofChars ?_
    have hdigits := not_mem_padded (c := 'Z') rfl 2
    cases isNegative <;>
      simp [WrittenOffset.chars, WrittenOffset.spelt, WrittenOffset.sign, hdigits]

theorem cutFractions_plain {cs : List Char} (h : '.' ∉ cs) (t : Text) :
    cutFractions none (Text.ofChars cs ++ t) = Text.ofChars cs ++ cutFractions none t := by
  induction cs with
  | nil => rfl
  | cons c cs ih =>
    obtain ⟨hc, hcs⟩ := not_or.1 (mt List.mem_cons.2 h)
    have hne : CodePoint.ofChar c ≠ '.' := fun h => hc (CodePoint.ofChar_injective h).symm
    rw [Text.ofChars_cons, List.cons_append, cutFractions, if_neg hne, ih hcs]
    split_ifs <;> rfl

theorem isDecimalDigit_ofChar {c : Char} (h : c.isDigit = true) : isDecimalDigit c = true := by
  obtain ⟨hlow, hhigh⟩ := Char.isDigit_iff_toNat.1 h
  rw [isDecimalDigit, Bool.or_eq_true, Bool.and_eq_true, decide_eq_true_eq, decide_eq_true_eq]
  exact .inl ⟨hlow, hhigh⟩

/-- An offset is left as it is. -/
theorem cutFractions_offset (o : WrittenOffset) (seen : Option Nat) :
    cutFractions seen (Text.ofChars o.spelt) = Text.ofChars o.spelt := by
  have hdigits := not_mem_padded (c := '.') rfl 2
  have hplain : cutFractions none (Text.ofChars (Format.padded 2 o.hour ++
      ':' :: Format.padded 2 o.minute) ++ []) = _ := cutFractions_plain (by simp [hdigits]) []
  have hreset : ∀ (c : Char) (t : Text), c = '+' ∨ c = '-' →
      cutFractions seen (CodePoint.ofChar c :: t) = CodePoint.ofChar c :: cutFractions none t := by
    rintro c t (rfl | rfl) <;> cases seen <;> rfl
  rw [List.append_nil] at hplain
  rw [WrittenOffset.spelt, Text.ofChars_cons, hreset _ _ o.sign_eq, hplain]
  rw [cutFractions, List.append_nil]

/-- Six digits of a fraction are kept. -/
theorem cutFractions_digits {ds : List Char} (hds : Json.AllDigits ds) {t : Text}
    (ht : ∀ seen, cutFractions seen t = t) {n : Nat} (hn : n ≤ 6) :
    cutFractions (some n) (Text.ofChars ds ++ t) = Text.ofChars (ds.take (6 - n)) ++ t := by
  induction ds generalizing n with
  | nil => rw [List.take_nil]; exact ht _
  | cons c ds ih =>
    obtain ⟨hc, hds⟩ := List.forall_mem_cons.1 hds
    have hne : CodePoint.ofChar c ≠ '.' := by
      intro h
      rw [CodePoint.ofChar_injective h] at hc
      cases hc
    rw [Text.ofChars_cons, List.cons_append, cutFractions, if_neg hne,
      if_pos (isDecimalDigit_ofChar hc)]
    split_ifs with hlt
    · rw [ih hds hlt, show 6 - n = (6 - (n + 1)) + 1 by omega, List.take_succ_cons]
      rfl
    · rw [ih hds hn, show 6 - n = 0 by omega, List.take_zero, List.take_zero]

namespace Written

theorem not_mem_start {c : Char} (h : c.isDigit = false) (hhyphen : c ≠ '-') (hmark : c ≠ 'T')
    (hcolon : c ≠ ':') (w : Written) : c ∉ w.start := by
  simp [start, dayText, clockChars, not_mem_padded h, hhyphen, hmark, hcolon]

theorem spellZones_pointed {ds : List Char} (hds : Json.AllDigits ds) :
    spellZones (Text.ofChars (pointed ds)) = Text.ofChars (pointed ds) := by
  refine spellZones_ofChars fun hmem => ?_
  rw [pointed] at hmem
  split_ifs at hmem
  · cases hmem
  · obtain h | h := List.mem_cons.1 hmem
    · cases h
    · cases hds _ h

/-- The first six digits behind a point are kept. -/
theorem cutFractions_pointed {ds : List Char} (hds : Json.AllDigits ds) (o : WrittenOffset) :
    cutFractions none (Text.ofChars (pointed ds) ++ Text.ofChars o.spelt) =
      Text.ofChars (pointed (ds.take 6)) ++ Text.ofChars o.spelt := by
  obtain - | ⟨d, ds⟩ := ds
  · exact cutFractions_offset o none
  · have hcut := cutFractions_digits hds (cutFractions_offset o) (Nat.zero_le 6)
    exact congrArg (CodePoint.ofChar '.' :: ·) hcut

/-- Zones are spelt as offsets, and fractions are cut. -/
theorem normalize_chars {w : Written} (hw : Json.AllDigits w.fraction) :
    normalize (Text.ofChars w.chars) = Text.ofChars w.normal := by
  have hzone := not_mem_start (c := 'Z') rfl (by decide) (by decide) (by decide) w
  have hpoint := not_mem_start (c := '.') rfl (by decide) (by decide) (by decide) w
  calc normalize (Text.ofChars w.chars)
      = cutFractions none (Text.ofChars w.start ++
          (Text.ofChars (pointed w.fraction) ++ Text.ofChars w.offset.spelt)) := by
        simp only [normalize, chars, Text.ofChars_append, spellZones_append,
          spellZones_ofChars hzone, spellZones_pointed hw, spellZones_offset]
    _ = Text.ofChars w.normal := by
        rw [cutFractions_plain hpoint, cutFractions_pointed hw, normal, Text.ofChars_append,
          Text.ofChars_append]

/-! ## Reading -/

theorem isDigitByte_of_startsOffset {b : UInt8} (h : startsOffset b = true) :
    isDigitByte b = false := by
  rw [startsOffset, Bool.or_eq_true, Bool.or_eq_true, decide_eq_true_eq, decide_eq_true_eq,
    decide_eq_true_eq] at h
  obtain (rfl | rfl) | rfl := h <;> rfl

theorem startsOffset_of_isDigitByte {b : UInt8} (h : isDigitByte b = true) :
    startsOffset b = false := by
  by_contra hne
  rw [isDigitByte_of_startsOffset (Bool.eq_true_of_not_eq_false hne)] at h
  cases h

theorem startsOffset_sign (o : WrittenOffset) : startsOffset o.sign.toUInt8 = true := by
  obtain h | h := o.sign_eq <;> rw [h] <;> rfl

theorem bytes_spelt (o : WrittenOffset) : bytes o.spelt = o.sign.toUInt8 ::
    (bytes (Format.padded 2 o.hour) ++ ':'.toUInt8 :: bytes (Format.padded 2 o.minute)) := by
  have hsign : o.sign.toNat < 128 := by
    obtain h | h := o.sign_eq <;> rw [h] <;> decide
  rw [WrittenOffset.spelt, bytes_cons hsign, bytes_append, bytes_cons (by decide)]

/-- A time of day has no sign of an offset. -/
theorem dropWhile_clock {cs : List Char} (h : ∀ c ∈ cs, c.isDigit = true ∨ c = ':' ∨ c = '.')
    (o : WrittenOffset) :
    (bytes (cs ++ o.spelt)).dropWhile (!startsOffset ·) = bytes o.spelt := by
  induction cs with
  | nil =>
    have hsign := startsOffset_sign o
    rw [List.nil_append, bytes_spelt, List.dropWhile_cons_of_neg (by simp [hsign])]
  | cons c cs ih =>
    obtain ⟨hc, hcs⟩ := List.forall_mem_cons.1 h
    have hfirst : bytes (c :: (cs ++ o.spelt)) = c.toUInt8 :: bytes (cs ++ o.spelt) ∧
        startsOffset c.toUInt8 = false := by
      obtain hc | rfl | rfl := hc
      · exact ⟨bytes_cons_digit hc _, startsOffset_of_isDigitByte (isDigitByte_toUInt8 hc)⟩
      · exact ⟨bytes_cons (by decide) _, rfl⟩
      · exact ⟨bytes_cons (by decide) _, rfl⟩
    rw [List.cons_append, hfirst.1, List.dropWhile_cons_of_pos (by simp [hfirst.2]), ih hcs]

theorem microsecond_eq (w : Written) :
    w.microsecond = value (w.fraction.take 6) * 10 ^ (6 - (w.fraction.take 6).length) := by
  have hlength : 6 - (w.fraction.take 6).length = min (6 - w.fraction.length) 6 := by
    rw [List.length_take]
    omega
  rw [microsecond, List.take_append, List.take_replicate, value_append_zeros, hlength]

theorem allDigits_take {ds : List Char} (hds : Json.AllDigits ds) (n : Nat) :
    Json.AllDigits (ds.take n) := fun c hc => hds c (List.mem_of_mem_take hc)

/-- The last field is read with the fraction behind it. -/
theorem clock?_pointed {colons : Option Bool} {fields : List Nat} {remaining : Nat}
    {field ds : List Char} (hfield : IsField 2 field) (hds : Json.AllDigits ds)
    (hlength : ds.length ≤ 6) {zone : Bytes} (hzone : isDigitByte (peek zone) = false) :
    clock? zone.length colons fields remaining (bytes field ++ (bytes (pointed ds) ++ zone)) =
      some ⟨fields ++ [value field], value ds * 10 ^ (6 - ds.length), peek zone ≠ 0⟩ := by
  obtain - | ⟨d, ds⟩ := ds
  · rw [pointed, if_pos rfl, bytes_nil, List.nil_append, clock?_last hfield (Nat.le_succ _)]
    rfl
  · have hlong : zone.length < (bytes (d :: ds) ++ zone).length := by
      rw [List.length_append, length_bytes hds, List.length_cons]
      omega
    rw [pointed, if_neg (List.cons_ne_nil d ds), bytes_cons (by decide), List.cons_append,
      clock?_point hfield hlong, fraction?_bytes hds hlength hzone]

/-- A time of day is read. -/
theorem clock?_bytes {w : Written} (hw : w.IsValid) {zone : Bytes}
    (hzone : isDigitByte (peek zone) = false) :
    clock? zone.length none [] 2
        (bytes w.clockChars ++ (bytes (pointed (w.fraction.take 6)) ++ zone)) =
      some ⟨[w.hour, w.minute, w.second], w.microsecond, peek zone ≠ 0⟩ := by
  have hfield : ∀ {n}, n < 60 → IsField 2 (Format.padded 2 n) := fun hn =>
    isField_padded (by decide) (hn.trans (by decide))
  have hlength : ∀ {n}, n < 60 → (bytes (Format.padded 2 n)).length = 2 := fun hn =>
    (length_bytes (hfield hn).2).trans (hfield hn).1
  have hbytes : bytes w.clockChars ++ (bytes (pointed (w.fraction.take 6)) ++ zone) =
      bytes (Format.padded 2 w.hour) ++ ':'.toUInt8 :: (bytes (Format.padded 2 w.minute) ++
        ':'.toUInt8 :: (bytes (Format.padded 2 w.second) ++
          (bytes (pointed (w.fraction.take 6)) ++ zone))) := by
    simp [clockChars, bytes_cons (c := ':') (by decide)]
  rw [hbytes, clock?_colon (hfield (hw.hour.trans (by decide))) rfl,
    clock?_colon (hfield hw.minute) rfl,
    clock?_pointed (hfield hw.second) (allDigits_take hw.fraction 6) (List.length_take_le 6 _)
      hzone, microsecond_eq, value_padded, value_padded, value_padded]
  · rfl
  · simp only [List.length_append, hlength hw.second]
    omega
  · simp only [List.length_append, List.length_cons, hlength hw.minute, hlength hw.second]
    omega

theorem offset?_spelt {o : WrittenOffset} (ho : o.IsValid) :
    offset? (bytes o.spelt) = some (o.seconds * microseconds) := by
  rw [bytes_spelt, offset?_bytes o.sign_eq (isField_padded (by decide) (ho.1.trans (by decide)))
    (isField_padded (by decide) (ho.2.trans (by decide))), value_padded, value_padded,
    WrittenOffset.seconds, Int.natCast_mul]
  split_ifs
  · rw [Int.neg_mul]
  · rfl

theorem of_mem_clock {w : Written} {ds : List Char} (hds : Json.AllDigits ds) {c : Char}
    (hc : c ∈ w.clockChars ++ pointed ds) : c.isDigit = true ∨ c = ':' ∨ c = '.' := by
  have hpadded := fun n => Json.allDigits_padded 2 n c
  simp only [clockChars, List.mem_append, List.mem_cons] at hc
  obtain (hc | rfl | hc | rfl | hc) | hc := hc
  · exact .inl (hpadded _ hc)
  · exact .inr (.inl rfl)
  · exact .inl (hpadded _ hc)
  · exact .inr (.inl rfl)
  · exact .inl (hpadded _ hc)
  · rw [pointed] at hc
    split_ifs at hc
    · cases hc
    · exact (List.mem_cons.1 hc).symm.imp (hds c) .inr

/-- The time of day and the offset are read. -/
theorem ofDayAndTime?_bytes {w : Written} (hw : w.IsValid) :
    ofDayAndTime? w.date
        (bytes (w.clockChars ++ (pointed (w.fraction.take 6) ++ w.offset.spelt))) =
      some w.moment := by
  have hdrop : (bytes (w.clockChars ++ (pointed (w.fraction.take 6) ++ w.offset.spelt))).dropWhile
      (!startsOffset ·) = bytes w.offset.spelt := by
    rw [← List.append_assoc]
    exact dropWhile_clock (fun _ => of_mem_clock (allDigits_take hw.fraction 6)) w.offset
  have hsign : isDigitByte (peek (bytes w.offset.spelt)) = false := by
    rw [bytes_spelt]
    exact isDigitByte_of_startsOffset (startsOffset_sign w.offset)
  have hne : (bytes w.offset.spelt).isEmpty = false := by
    rw [bytes_spelt]
    rfl
  have hclock := clock?_bytes hw hsign
  rw [← bytes_append, ← bytes_append] at hclock
  rw [ofDayAndTime?]
  dsimp only [bind, Option.bind]
  rw [hdrop, hclock]
  dsimp only
  rw [hne, offset?_spelt hw.offset]
  rfl

theorem daysInMonth_le (year month : Nat) : Date.daysInMonth year month ≤ 31 := by
  rw [Date.daysInMonth]
  split_ifs <;> decide

/-- The parts of a moment are read. -/
theorem fields?_normal {w : Written} (hw : w.IsValid) :
    fields? (bytes w.normal) = some w.moment := by
  obtain ⟨hyear, -, hmonth, -, hday⟩ := hw.date
  have hyear' : IsField 4 (Format.padded 4 w.date.year) := isField_padded (by decide) (by
    rw [Date.isYear, Bool.and_eq_true, decide_eq_true_eq, decide_eq_true_eq] at hyear
    omega)
  have hmonth' : IsField 2 (Format.padded 2 w.date.month) := isField_padded (by decide) (by omega)
  have hday' : IsField 2 (Format.padded 2 w.date.day) :=
    isField_padded (by decide) ((hday.trans (daysInMonth_le _ _)).trans_lt (by decide))
  have hbytes : bytes w.normal = dayBytes (Format.padded 4 w.date.year)
      (Format.padded 2 w.date.month) (Format.padded 2 w.date.day) ('T'.toUInt8 ::
        bytes (w.clockChars ++ (pointed (w.fraction.take 6) ++ w.offset.spelt))) := by
    simp [normal, start, dayText, dayBytes, bytes_cons (c := '-') (by decide),
      bytes_cons (c := 'T') (by decide)]
  have hmark : ∀ s : Bytes, List.drop (characterLength (peek ('T'.toUInt8 :: s)))
      ('T'.toUInt8 :: s) = s := fun _ => rfl
  rw [hbytes, fields?, dayLength_bytes hyear' hmonth' hday']
  dsimp only [bind, Option.bind]
  rw [day?_bytes hyear' hmonth' hday', drop_dayBytes hyear' hmonth' hday', value_padded,
    value_padded, value_padded, hmark]
  exact ofDayAndTime?_bytes hw

theorem microsecond_lt {w : Written} (hw : w.IsValid) : w.microsecond < microseconds := by
  have hdigits : Json.AllDigits (w.fraction ++ List.replicate 6 '0') :=
    Json.AllDigits.append hw.fraction (Json.allDigits_zeros 6)
  refine (value_lt (allDigits_take hdigits 6)).trans_eq ?_
  rw [List.length_take, List.length_append, List.length_replicate,
    Nat.min_eq_left (Nat.le_add_left 6 _)]
  rfl

/-- The moment of a written form exists. -/
theorem isValid_moment {w : Written} (hw : w.IsValid) : w.moment.IsValid := by
  refine ⟨hw.date, hw.hour, hw.minute, hw.second, microsecond_lt hw, ?_⟩
  rintro o ⟨⟩
  obtain ⟨hhour, hminute⟩ := hw.offset
  have hday : w.offset.seconds.natAbs < 86400 := by
    rw [w.offset.natAbs_seconds]
    omega
  rw [Int.natAbs_mul]
  exact Nat.mul_lt_mul_of_pos_right hday (by decide)

theorem replaceHalf_ofChars (cs : List Char) : replaceHalf (Text.ofChars cs) = Text.ofChars cs := by
  have hnone : [7, 8, 10].find? (fun i =>
      ((Text.ofChars cs)[i]?.map CodePoint.isHalf).getD false) = none := by
    refine List.find?_eq_none.2 fun i _ => ?_
    cases hc : (Text.ofChars cs)[i]? with
    | none => simp
    | some c => simp [Text.isHalf_ofChars cs c (List.mem_of_getElem? hc)]
  rw [replaceHalf, hnone]

theorem read_normal {w : Written} (hw : w.IsValid) :
    read (Text.ofChars w.normal) = .ok w.moment := by
  have hlong : 7 ≤ (Text.ofChars w.normal).length := by
    simp only [Text.ofChars, normal, start, dayText, clockChars, WrittenOffset.spelt,
      List.length_map, List.length_append, List.length_cons]
    omega
  have hencode : Encoding.encode (Text.ofChars w.normal) = .ok (bytes w.normal) :=
    Encoding.encode_eq_ok_iff.2 ⟨Text.isHalf_ofChars _, rfl⟩
  rw [read, if_neg hlong.not_gt, replaceHalf_ofChars, hencode]
  dsimp only
  rw [readBytes, fields?_normal hw]
  exact if_pos (isValid_moment hw)

/-- A written moment is read. -/
theorem ofReport_chars {w : Written} (hw : w.IsValid) (now : Timestamp) :
    ofReport now (Text.ofChars w.chars) = w.moment := by
  have hne : (Text.ofChars w.chars).isEmpty = false := by
    simp [Text.ofChars, chars, start]
  rw [ofReport, hne, normalize_chars hw.fraction, read_normal hw]
  rfl

end Written

/-! ## Printing -/

namespace WrittenOffset

def shortest (o : WrittenOffset) : WrittenOffset := if o.seconds = 0 then .universal else o

theorem seconds_shortest (o : WrittenOffset) : o.shortest.seconds = o.seconds := by
  rw [shortest]
  split_ifs with hzero
  · exact hzero.symm
  · rfl

theorem isValid_shortest {o : WrittenOffset} (ho : o.IsValid) : o.shortest.IsValid := by
  rw [shortest]
  split_ifs
  · decide
  · exact ho

theorem chars_of_seconds_ne_zero {o : WrittenOffset} (h : o.seconds ≠ 0) : o.chars = o.spelt := by
  cases o with
  | universal => exact absurd rfl h
  | signed isNegative hour minute => rfl

theorem hoursMinutes_eq {hour minute : Nat} (hminute : minute < 60) :
    hoursMinutes (hour * 3600 + minute * 60) =
      Format.padded 2 hour ++ ':' :: Format.padded 2 minute := by
  rw [hoursMinutes, show (hour * 3600 + minute * 60) / 3600 = hour by omega,
    show (hour * 3600 + minute * 60) / 60 % 60 = minute by omega]

theorem wholeSeconds_mul (k : Int) : wholeSeconds (k * microseconds) = k := by
  rw [wholeSeconds, microseconds]
  split_ifs <;> omega

theorem sign_of_seconds {o : WrittenOffset} (h : o.seconds ≠ 0) :
    (if o.seconds < 0 then '-' else '+') = o.sign := by
  rw [seconds] at h ⊢
  obtain hsign | hsign := o.sign_eq
  · have hplus : ¬ '+' = '-' := by decide
    rw [hsign, if_neg hplus]
    exact if_neg (Int.natCast_nonneg _).not_gt
  · rw [hsign, if_pos rfl] at h ⊢
    exact if_pos (by omega)

/-- An offset is printed in its shortest form. -/
theorem offsetText_seconds {o : WrittenOffset} (ho : o.IsValid) :
    offsetText (some (o.seconds * microseconds)) = o.shortest.chars := by
  rw [offsetText, wholeSeconds_mul, shortest]
  by_cases hzero : o.seconds = 0
  · rw [if_pos hzero, if_pos hzero]
    rfl
  · rw [if_neg hzero, if_neg hzero, sign_of_seconds hzero, natAbs_seconds, hoursMinutes_eq ho.2,
      chars_of_seconds_ne_zero hzero]
    rfl

end WrittenOffset

namespace Written

/-- The form that the moment is printed in: a fraction of six digits unless it is zero, and a letter
for universal time. -/
def printed (w : Written) : Written :=
  { w with
    fraction := if w.microsecond = 0 then [] else Format.padded 6 w.microsecond
    offset := w.offset.shortest }

theorem isField_microsecond {w : Written} (hw : w.IsValid) :
    IsField 6 (Format.padded 6 w.microsecond) :=
  isField_padded (by decide) (microsecond_lt hw)

theorem microsecond_printed {w : Written} (hw : w.IsValid) :
    w.printed.microsecond = w.microsecond := by
  rw [microsecond, printed]
  dsimp only
  split_ifs with hzero
  · rw [hzero]
    rfl
  · rw [List.take_left' (isField_microsecond hw).1, value_padded]

theorem isValid_printed {w : Written} (hw : w.IsValid) : w.printed.IsValid := by
  refine ⟨hw.date, hw.hour, hw.minute, hw.second, ?_, WrittenOffset.isValid_shortest hw.offset⟩
  rw [printed]
  dsimp only
  split_ifs
  · exact List.forall_mem_nil _
  · exact Json.allDigits_padded 6 _

theorem moment_printed {w : Written} (hw : w.IsValid) : w.printed.moment = w.moment := by
  have hseconds : w.printed.offset.seconds = w.offset.seconds := w.offset.seconds_shortest
  rw [moment, microsecond_printed hw, hseconds]
  rfl

theorem pointed_fraction_printed {w : Written} (hw : w.IsValid) :
    pointed w.printed.fraction =
      if w.microsecond = 0 then [] else '.' :: Format.padded 6 w.microsecond := by
  have hne : Format.padded 6 w.microsecond ≠ [] :=
    List.ne_nil_of_length_eq_add_one (isField_microsecond hw).1
  rw [printed]
  dsimp only
  split_ifs
  · rfl
  · exact if_neg hne

/-- A moment is printed with six digits of its fraction or none. -/
theorem toChars_moment {w : Written} (hw : w.IsValid) : w.moment.toChars = w.printed.chars := by
  have hoffset : offsetText w.moment.offset = w.printed.offset.chars :=
    WrittenOffset.offsetText_seconds hw.offset
  have hclock : clockText w.moment = w.printed.clockChars := by
    simp [clockText, clockChars, moment, printed]
  rw [toChars, hoffset, hclock, chars, pointed_fraction_printed hw, List.append_assoc]
  rfl

end Written

/-- A written moment is read with its fraction cut to microseconds, and the form that this moment is
printed in is read as the same moment. -/
theorem ofReport_written {w : Written} (hw : w.IsValid) (now : Timestamp) :
    ofReport now (Text.ofChars w.chars) = w.moment ∧
      ofReport now (Text.ofString w.moment.toText) = w.moment := by
  have hprinted : Text.ofString w.moment.toText = Text.ofChars w.printed.chars := by
    rw [Text.ofString, toText, String.toList_ofList, Written.toChars_moment hw]
  refine ⟨Written.ofReport_chars hw now, ?_⟩
  rw [hprinted, Written.ofReport_chars (Written.isValid_printed hw), Written.moment_printed hw]

theorem ofReport_written_of_leapDay :
    let w : Written := ⟨⟨2024, 2, 29⟩, 23, 59, 59, "123456789".toList, .signed true 5 30⟩
    let now : Timestamp := ⟨⟨2000, 1, 1⟩, 0, 0, 0, 0, some 0⟩
    let moment : Timestamp := ⟨⟨2024, 2, 29⟩, 23, 59, 59, 123456, some (-19800000000)⟩
    w.IsValid ∧
      ofReport now (Text.ofString "2024-02-29T23:59:59.123456789-05:30") = moment ∧
      ofReport now (Text.ofString "2024-02-29T23:59:59.123456-05:30") = moment := by
  intro w now moment
  have hw : w.IsValid := by decide
  have hchars : w.chars = "2024-02-29T23:59:59.123456789-05:30".toList := by decide
  have hmoment : w.moment = moment := by decide
  have htext : moment.toText = "2024-02-29T23:59:59.123456-05:30" := by decide
  obtain ⟨hread, hagain⟩ := ofReport_written hw now
  rw [hchars, hmoment] at hread
  rw [hmoment, htext] at hagain
  exact ⟨hw, hread, hagain⟩

end Timestamp
end ContainerDocs
