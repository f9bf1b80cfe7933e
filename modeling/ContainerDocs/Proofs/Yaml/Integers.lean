import ContainerDocs.Proofs.Text.Blank
import ContainerDocs.Proofs.Traversal
import ContainerDocs.Proofs.Yaml.SingleTokens
import ContainerDocs.Yaml.Scalar
import Mathlib.Tactic.IntervalCases

/-!
# Which integers have a value

A text that looks like an integer has a value, with two exceptions: the digits behind the sign of a
base may be low lines alone, and a decimal number may have more digits than are read.

## Main definitions

* `fault?` — the fault of a reading.
* `Scalar.IsVisible` — the characters that stand for themselves in a number.
* `Scalar.intFault?` — the fault of what looks like an integer.

## Main statements

* `Scalar.integer_digits` — digits in a base are read.
* `Scalar.fault?_int` — the fault of an integer.
-/

namespace ContainerDocs.Yaml

/-! ## Faults -/

def fault? {α : Type} : Except Fault α → Option Fault
  | .ok _ => none
  | .error f => some f

theorem fault?_eq_some_iff {α : Type} {x : Except Fault α} {f : Fault} :
    fault? x = some f ↔ x = .error f := by
  cases x <;> simp [fault?]

theorem fault?_bind {α β : Type} (x : Except Fault α) (g : α → β) :
    fault? (do let a ← x; return g a) = fault? x := by
  cases x <;> rfl

theorem fault?_mapM_cons {α β : Type} {g : α → Except Fault β} {a : α} {as : List α}
    (h : ∀ a ∈ as, ∃ b, g a = .ok b) : fault? ((a :: as).mapM g) = fault? (g a) := by
  obtain ⟨bs, hbs⟩ := Traversal.exists_mapM h
  rw [List.mapM_cons, hbs]
  cases g a <;> rfl

namespace Scalar

open Character

/-! ## Written numbers -/

def hexDigits : List Char := "0123456789abcdefABCDEF".toList

theorem mem_hexDigits {c : Char} (h : (hexDigit? c).isSome = true) : c ∈ hexDigits := by
  have hc : c = Char.ofNat c.toNat := (Char.ofNat_toNat c).symm
  rw [hexDigit?] at h
  split_ifs at h with hdigit hsmall hlarge
  · have hlow : 48 ≤ c.toNat := hdigit.1
    have hhigh : c.toNat ≤ 57 := hdigit.2
    rw [hc]
    generalize c.toNat = n at hlow hhigh
    interval_cases n <;> decide
  · have hlow : 97 ≤ c.toNat := hsmall.1
    have hhigh : c.toNat ≤ 102 := hsmall.2
    rw [hc]
    generalize c.toNat = n at hlow hhigh
    interval_cases n <;> decide
  · have hlow : 65 ≤ c.toNat := hlarge.1
    have hhigh : c.toNat ≤ 70 := hlarge.2
    rw [hc]
    generalize c.toNat = n at hlow hhigh
    interval_cases n <;> decide
  · cases h

/-- A character that stands for itself in a number: one of ASCII that is no white space. -/
def IsVisible (c : Char) : Prop := 32 < c.toNat ∧ c.toNat < 128

theorem numeral_eq_self {cs : List Char} (h : ∀ c ∈ cs, IsVisible c) : numeral cs = cs := by
  have hmap : cs.map Digit.toAscii = cs := by
    refine (List.map_congr_left fun c hc => ?_).trans (List.map_id cs)
    rw [Digit.toAscii, if_pos (h c hc).2]
    rfl
  have hspace : ∀ c ∈ cs, Schema.isSpace c = false := by
    intro c hc
    obtain ⟨hlow, hhigh⟩ := h c hc
    have hblank : Blank.isBlankCode c.toNat = false := by
      rw [← Bool.not_eq_true, Blank.isBlankCode]
      simp only [Bool.or_eq_true, Bool.and_eq_true, decide_eq_true_eq, beq_iff_eq]
      omega
    rw [Schema.isSpace, Blank.isBlank, hblank, Bool.false_and]
  rw [numeral, hmap]
  exact Blank.trim_eq_self (fun c hc => hspace c (List.mem_of_mem_head? hc))
    fun c hc => hspace c (List.mem_of_mem_getLast? hc)

theorem digits_apart :
    ([2, 8, 10, 16].all fun base => hexDigits.all fun c => !(digit? base c).isSome ||
      (decide (32 < c.toNat ∧ c.toNat < 128) && c != '-' && c != '+' &&
        baseLetter? base != some c.toLower)) = true := by
  decide

/-- What a digit in one of the four bases is not. -/
theorem digit_apart {base : Nat} (hbase : base ∈ [2, 8, 10, 16]) {c : Char}
    (h : (digit? base c).isSome = true) :
    IsVisible c ∧ c ≠ '-' ∧ c ≠ '+' ∧ baseLetter? base ≠ some c.toLower := by
  have hhex : (hexDigit? c).isSome = true := by
    obtain ⟨d, hd⟩ := Option.isSome_iff_exists.1 h
    exact Option.isSome_iff_exists.2 ⟨d, (Option.filter_eq_some_iff.1 hd).1⟩
  have hall :=
    List.all_eq_true.1 (List.all_eq_true.1 digits_apart base hbase) c (mem_hexDigits hhex)
  simpa [h, IsVisible, and_assoc] using hall

section Integer

variable {base : Nat} {ds : List Char}

theorem integer_digits (hbase : base ∈ [2, 8, 10, 16]) (hne : ds ≠ [])
    (hds : ∀ c ∈ ds, (digit? base c).isSome = true) :
    ∃ n, integer base ds = if base = 10 ∧ maxDigits < ds.length
      then .error (.value (.tooManyDigits ds.length)) else .ok n := by
  have hnumeral : numeral ds = ds := numeral_eq_self fun c hc => (digit_apart hbase (hds c hc)).1
  have hunsigned : unsigned ds = ds := by
    cases ds with
    | nil => rfl
    | cons c rest =>
      obtain ⟨-, hminus, hplus, -⟩ := digit_apart hbase (hds c List.mem_cons_self)
      simp [unsigned, hminus, hplus]
  have hcount : ds.takeWhile (fun c => (digit? base c).isSome) = ds :=
    List.takeWhile_eq_self_iff.2 hds
  obtain ⟨values, hvalues⟩ := Traversal.exists_mapM_some hds
  have hempty : ds.isEmpty = false := List.isEmpty_eq_false_iff.2 hne
  rw [integer, hnumeral, hunsigned]
  split
  · rename_i letter rest
    rw [if_neg (digit_apart hbase (hds letter (by simp))).2.2.2, hcount, hempty, hvalues]
    exact ⟨_, rfl⟩
  · rw [hcount, hempty, hvalues]
    exact ⟨_, rfl⟩

theorem integer_nil (hbase : base ∈ [2, 16]) :
    integer base [] = .error (.value (.notInteger base [])) := by
  simp only [List.mem_cons, List.not_mem_nil, or_false] at hbase
  rcases hbase with rfl | rfl <;> rfl

end Integer

/-! ## Integers -/

theorem withoutLines_cons {c : Char} (h : c ≠ '_') (cs : List Char) :
    withoutLines (c :: cs) = c :: withoutLines cs := by
  rw [withoutLines, List.filter_cons_of_pos (by simpa using h)]
  rfl

theorem withoutLines_eq_self {cs : List Char} (h : ∀ c ∈ cs, c ≠ '_') : withoutLines cs = cs :=
  List.filter_eq_self.2 fun c hc => by simpa using h c hc

theorem splitOn_withoutLines (cs : List Char) : Blank.splitOn (· = ':') (withoutLines cs) =
    (Blank.splitOn (· = ':') cs).map withoutLines :=
  Blank.splitOn_filter (fun a ha => by rw [of_decide_eq_true ha]; rfl) cs

/-- A sign in front does not matter where low lines are left out. -/
theorem unsigned_withoutLines {w : List Char} {c : Char} (hc : (unsigned w).head? = some c)
    (hline : c ≠ '_') : unsigned (withoutLines w) = withoutLines (unsigned w) := by
  cases w with
  | nil => rfl
  | cons d rest =>
    by_cases hsign : d = '-' ∨ d = '+'
    · have hline : d ≠ '_' := by rcases hsign with rfl | rfl <;> decide
      rw [withoutLines_cons hline]
      simp [unsigned, hsign]
    · have hd : d = c := by simpa [unsigned, hsign] using hc
      subst hd
      rw [withoutLines_cons hline]
      simp [unsigned, hsign, withoutLines_cons hline]

theorem isDigit_of_isDigitOrLine {c : Char} (h : isDigitOrLine c = true) (hc : c ≠ '_') :
    c.isDigit = true := by
  simpa [isDigitOrLine, hc] using h

theorem exists_cons_of_isDigits {cs : List Char} (h : isDigits cs = true) :
    ∃ c rest, cs = c :: rest ∧ c.isDigit = true ∧ ∀ d ∈ cs, isDigitOrLine d = true := by
  rw [isDigits, Bool.and_eq_true, List.all_eq_true] at h
  cases cs with
  | nil => simp at h
  | cons c rest => exact ⟨c, rest, rfl, by simpa using h.1, h.2⟩

theorem isSome_digit? {c : Char} (h : c.isDigit = true) : (digit? 10 c).isSome = true := by
  rw [Char.isDigit, Bool.and_eq_true] at h
  have hc : '0' ≤ c ∧ c ≤ '9' := ⟨of_decide_eq_true h.1, of_decide_eq_true h.2⟩
  have hhigh : c.toNat ≤ 57 := hc.2
  have hzero : '0'.toNat = 48 := rfl
  rw [digit?, hexDigit?, if_pos hc, Option.filter_some, if_pos (by simp; omega)]
  rfl

theorem isDigit_of_mem_withoutLines {cs : List Char} (h : ∀ c ∈ cs, isDigitOrLine c = true) :
    ∀ c ∈ withoutLines cs, c.isDigit = true := by
  intro c hc
  obtain ⟨hc, hline⟩ := List.mem_filter.1 hc
  exact isDigit_of_isDigitOrLine (h c hc) (by simpa using hline)

/-- The fault of what looks like an integer, without its sign: digits that are only low lines, or
too many decimal digits in front of the first colon. -/
def intFault? : List Char → Option ValueFault
  | '0' :: 'b' :: ds => if ds.all (· = '_') then some (.notInteger 2 []) else none
  | '0' :: 'x' :: ds => if ds.all (· = '_') then some (.notInteger 16 []) else none
  | '0' :: _ => none
  | body =>
    let count := ((withoutLines body).takeWhile fun c => !(c = ':')).length
    if maxDigits < count then some (.tooManyDigits count) else none

theorem intFault?_of_ne_zero {d : Char} {ds : List Char} (hd : d ≠ '0') :
    intFault? (d :: ds) =
      if maxDigits < ((withoutLines (d :: ds)).takeWhile fun c => !(c = ':')).length
      then some (.tooManyDigits ((withoutLines (d :: ds)).takeWhile fun c => !(c = ':')).length)
      else none := by
  rw [intFault?.eq_def]
  split
  · rename_i h
    exact absurd (List.cons.inj h).1 hd
  · rename_i h
    exact absurd (List.cons.inj h).1 hd
  · rename_i h
    exact absurd (List.cons.inj h).1 hd
  · rfl

theorem fault?_int_of_ne_zero {w ds : List Char} {d : Char} (hd : d ≠ '0')
    (hbody : unsigned (withoutLines w) = d :: ds) :
    fault? (int w) =
      if (d :: ds).contains ':'
      then fault? ((Blank.splitOn (· = ':') (d :: ds)).mapM (integer 10))
      else fault? (integer 10 (d :: ds)) := by
  rw [int]
  dsimp only
  split
  · rename_i h
    rw [hbody] at h
    cases h
  · rename_i h
    rw [hbody] at h
    exact absurd (List.cons.inj h).1 hd
  · rename_i h
    rw [hbody] at h
    exact absurd (List.cons.inj h).1 hd
  · rename_i h
    rw [hbody] at h
    exact absurd (List.cons.inj h).1 hd
  · rename_i h
    rw [hbody] at h
    exact absurd (List.cons.inj h).1 hd
  · rw [hbody]
    by_cases hcolon : (d :: ds).contains ':' = true
    · rw [if_pos hcolon, if_pos hcolon]
      cases (Blank.splitOn (· = ':') (d :: ds)).mapM (integer 10) with
      | ok parts => rfl
      | error f => rfl
    · rw [if_neg hcolon, if_neg hcolon]
      exact fault?_bind _ _

/-- Decimal digits, between which low lines may stand, have no value if there are too many. -/
theorem fault?_integer_ten {ds : List Char} (h : isDigits ds = true) :
    fault? (integer 10 (withoutLines ds)) =
      if maxDigits < (withoutLines ds).length
      then some (.value (.tooManyDigits (withoutLines ds).length)) else none := by
  obtain ⟨c, rest, rfl, hc, hall⟩ := exists_cons_of_isDigits h
  have hline : c ≠ '_' := by
    rintro rfl
    exact absurd hc (by decide)
  have hdigits : ∀ d ∈ withoutLines (c :: rest), (digit? 10 d).isSome = true :=
    fun d hd => isSome_digit? (isDigit_of_mem_withoutLines hall d hd)
  obtain ⟨n, hn⟩ := integer_digits (by simp)
    (by rw [withoutLines_cons hline]; exact List.cons_ne_nil _ _) hdigits
  rw [hn]
  simp only [true_and]
  split_ifs <;> rfl

/-- A number below sixty is one or two digits. -/
theorem isDigits_of_isSixtieth {part : List Char} (h : isSixtieth part = true) :
    isDigits part = true ∧ part.length ≤ 2 := by
  rw [isSixtieth.eq_def] at h
  split at h
  · simp [isDigits, isDigitOrLine, h]
  · rename_i a b
    simp only [Bool.and_eq_true, decide_eq_true_eq] at h
    obtain ⟨⟨hlow, hhigh⟩, hb⟩ := h
    have ha : a.isDigit = true := by
      rw [Char.isDigit, Bool.and_eq_true]
      exact ⟨decide_eq_true hlow, decide_eq_true (Char.le_trans hhigh (by decide))⟩
    simp [isDigits, isDigitOrLine, ha, hb]
  · cases h

theorem exists_integer_of_isSixtieth {part : List Char} (h : isSixtieth part = true) :
    ∃ n, integer 10 (withoutLines part) = .ok n := by
  obtain ⟨hdigits, hlength⟩ := isDigits_of_isSixtieth h
  have hfault := fault?_integer_ten hdigits
  have hshort : ¬maxDigits < (withoutLines part).length := by
    have hle : (withoutLines part).length ≤ part.length := List.length_filter_le _ _
    have hmax : maxDigits = 4300 := rfl
    omega
  rw [if_neg hshort] at hfault
  cases hvalue : integer 10 (withoutLines part) with
  | ok n => exact ⟨n, rfl⟩
  | error f =>
    rw [hvalue] at hfault
    cases hfault

/-- The fault of an integer to base ten or sixty. -/
theorem fault?_int_of_isPositive {w first : List Char} {more : List (List Char)}
    (hsplit : Blank.splitOn (· = ':') (unsigned w) = first :: more)
    (hfirst : isPositive first = true) (hmore : ∀ part ∈ more, isSixtieth part = true) :
    fault? (int w) = (intFault? (unsigned w)).map .value := by
  rw [isPositive, Bool.and_eq_true] at hfirst
  obtain ⟨hdigits, hzero⟩ := hfirst
  obtain ⟨c, rest, rfl, hc, -⟩ := exists_cons_of_isDigits hdigits
  have hne : c ≠ '0' := by simpa using hzero
  have hline : c ≠ '_' := by
    rintro rfl
    exact absurd hc (by decide)
  obtain ⟨tail, htail⟩ : ∃ tail, unsigned w = c :: tail := by
    have hprefix := List.takeWhile_prefix (fun d => !decide (d = ':')) (l := unsigned w)
    rw [Blank.takeWhile_of_splitOn hsplit] at hprefix
    obtain ⟨tail, htail⟩ := hprefix
    exact ⟨rest ++ tail, htail.symm⟩
  have hbody : unsigned (withoutLines w) = c :: withoutLines tail := by
    rw [unsigned_withoutLines (by rw [htail]; rfl) hline, htail, withoutLines_cons hline]
  have hpieces : Blank.splitOn (· = ':') (c :: withoutLines tail) =
      withoutLines (c :: rest) :: more.map withoutLines := by
    rw [← withoutLines_cons hline, ← htail, splitOn_withoutLines, hsplit, List.map_cons]
  have hfront := Blank.takeWhile_of_splitOn hpieces
  rw [fault?_int_of_ne_zero hne hbody, htail, intFault?_of_ne_zero hne, withoutLines_cons hline,
    hfront]
  have hten : fault? (integer 10 (withoutLines (c :: rest))) =
      (if maxDigits < (withoutLines (c :: rest)).length
        then some (ValueFault.tooManyDigits (withoutLines (c :: rest)).length)
        else none).map .value := by
    rw [fault?_integer_ten hdigits]
    split_ifs <;> rfl
  by_cases hcolon : (c :: withoutLines tail).contains ':' = true
  · rw [if_pos hcolon, hpieces, fault?_mapM_cons, hten]
    intro part hpart
    obtain ⟨piece, hpiece, rfl⟩ := List.mem_map.1 hpart
    exact exists_integer_of_isSixtieth (hmore piece hpiece)
  · have hwhole : c :: withoutLines tail = withoutLines (c :: rest) := by
      have hsingle : Blank.splitOn (· = ':') (c :: withoutLines tail) = [c :: withoutLines tail] :=
        Blank.splitOn_eq_singleton fun d hd => by
          refine decide_eq_false fun hd' => hcolon ?_
          exact List.contains_iff_mem.2 (hd' ▸ hd)
      rw [hsingle] at hpieces
      exact (List.cons.inj hpieces).1
    rw [if_neg hcolon, hwhole, hten]

theorem withoutLines_eq_nil_iff {ds : List Char} :
    withoutLines ds = [] ↔ ds.all (· = '_') = true := by
  simp [withoutLines]

/-- The digits behind the sign of a base have a value unless all of them are low lines. -/
theorem fault?_integer_withoutLines {base : Nat} (hbase : base ∈ [2, 16]) {ds : List Char}
    (hds : ∀ c ∈ withoutLines ds, (digit? base c).isSome = true) :
    fault? (integer base (withoutLines ds)) =
      if ds.all (· = '_') then some (.value (.notInteger base [])) else none := by
  split_ifs with hlines
  · rw [withoutLines_eq_nil_iff.2 hlines, integer_nil hbase]
    rfl
  · have hbases : base ∈ [2, 8, 10, 16] := by
      simp only [List.mem_cons, List.not_mem_nil, or_false] at hbase ⊢
      omega
    have hten : ¬(base = 10 ∧ maxDigits < (withoutLines ds).length) := by
      simp only [List.mem_cons, List.not_mem_nil, or_false] at hbase
      omega
    obtain ⟨n, hn⟩ := integer_digits hbases (mt withoutLines_eq_nil_iff.1 hlines) hds
    rw [hn, if_neg hten]
    rfl

theorem isSome_digit?_two {c : Char} (h : c = '0' ∨ c = '1') : (digit? 2 c).isSome = true := by
  rcases h with rfl | rfl <;> rfl

theorem isSome_digit?_eight {c : Char} (h : '0' ≤ c ∧ c ≤ '7') : (digit? 8 c).isSome = true := by
  have hc : '0' ≤ c ∧ c ≤ '9' := ⟨h.1, Char.le_trans h.2 (by decide)⟩
  have hhigh : c.toNat ≤ 55 := h.2
  have hzero : '0'.toNat = 48 := rfl
  rw [digit?, hexDigit?, if_pos hc, Option.filter_some, if_pos (by simp; omega)]
  rfl

theorem isSome_digit?_sixteen {c : Char} (h : (hexDigit? c).isSome = true) :
    (digit? 16 c).isSome = true := by
  obtain ⟨d, hd⟩ := Option.isSome_iff_exists.1 h
  have hlt := QuotedText.hexDigit?_lt hd
  rw [digit?, hd, Option.filter_some, if_pos (by simpa using hlt)]
  rfl

theorem not_isPositive_zero (rest : List Char) : isPositive ('0' :: rest) = false := by
  simp [isPositive]

theorem not_isSexagesimal_zero (rest : List Char) :
    isSexagesimal isPositive ('0' :: rest) = false := by
  obtain ⟨piece, pieces, hrest⟩ := Blank.exists_splitOn (fun c => decide (c = ':')) rest
  have hsplit : Blank.splitOn (· = ':') ('0' :: rest) = ('0' :: piece) :: pieces :=
    Blank.splitOn_cons_of_neg (by decide) hrest
  rw [isSexagesimal, hsplit]
  cases pieces with
  | nil => rfl
  | cons second more => simp [not_isPositive_zero]

theorem mem_of_mem_withoutLines {ds : List Char} {c : Char} (h : c ∈ withoutLines ds) :
    c ∈ ds ∧ c ≠ '_' := by
  simpa [withoutLines] using h

/-- Digits behind the sign of a base, with low lines between them. -/
theorem isSome_digit?_of_all {base : Nat} {digit : Char → Bool} {ds : List Char}
    (h : ds.all digit = true)
    (hdigit : ∀ c, c ≠ '_' → digit c = true → (digit? base c).isSome = true) :
    ∀ c ∈ withoutLines ds, (digit? base c).isSome = true := by
  intro c hc
  obtain ⟨hmem, hline⟩ := mem_of_mem_withoutLines hc
  exact hdigit c hline (List.all_eq_true.1 h c hmem)

/-- The fault of an integer behind the sign of a base. -/
theorem fault?_int_of_base {base : Nat} (hbase : base ∈ [2, 16]) {w ds : List Char}
    (h : fault? (int w) = fault? (integer base (withoutLines ds)))
    (hds : ∀ c ∈ withoutLines ds, (digit? base c).isSome = true) :
    fault? (int w) =
      (if ds.all (· = '_') then some (ValueFault.notInteger base []) else none).map .value := by
  rw [h, fault?_integer_withoutLines hbase hds]
  split_ifs <;> rfl

/-- The octal digits behind a zero have a value. -/
theorem fault?_int_of_octal {w rest : List Char}
    (hlines : unsigned (withoutLines w) = '0' :: withoutLines rest)
    (hds : ∀ c ∈ withoutLines rest, (digit? 8 c).isSome = true) : fault? (int w) = none := by
  rw [int, hlines]
  cases hrest : withoutLines rest with
  | nil => rfl
  | cons d ds =>
    rw [hrest] at hds
    have hall : ∀ c ∈ '0' :: d :: ds, (digit? 8 c).isSome = true :=
      List.forall_mem_cons.2 ⟨rfl, hds⟩
    obtain ⟨n, hn⟩ := integer_digits (by simp) (List.cons_ne_nil _ _) hall
    have height : fault? (integer 8 ('0' :: d :: ds)) = none := by
      rw [hn]
      rfl
    have hd := hds d List.mem_cons_self
    dsimp only
    split
    · rename_i heq
      cases heq
    · rename_i heq
      cases heq
    · rename_i heq
      cases heq
      exact absurd hd (by decide)
    · rename_i heq
      cases heq
      exact absurd hd (by decide)
    · exact (fault?_bind _ _).trans height
    · rename_i hzero
      exact absurd rfl (hzero (d :: ds))

/-- The fault of an integer with a zero in front. -/
theorem fault?_int_of_zero {w rest : List Char} (hbody : unsigned w = '0' :: rest)
    (h : isInt w = true) : fault? (int w) = (intFault? (unsigned w)).map .value := by
  have hlines : unsigned (withoutLines w) = '0' :: withoutLines rest := by
    rw [unsigned_withoutLines (by rw [hbody]; rfl) (by decide), hbody,
      withoutLines_cons (by decide)]
  rw [isInt] at h
  dsimp only at h
  rw [hbody, not_isPositive_zero, not_isSexagesimal_zero, Bool.or_false, Bool.or_false,
    Bool.or_eq_true] at h
  rw [hbody]
  rcases h with h | h
  · cases of_decide_eq_true h
    rw [int, hlines]
    rfl
  · split at h
    · rename_i ds heq
      cases heq
      have hds : ∀ c ∈ withoutLines ds, (digit? 2 c).isSome = true :=
        isSome_digit?_of_all (Bool.and_eq_true_iff.1 h).2 fun c hc hdigit =>
          isSome_digit?_two (by simpa [hc] using hdigit)
      rw [intFault?]
      refine fault?_int_of_base (by simp) ?_ hds
      rw [int, hlines, withoutLines_cons (by decide)]
      exact fault?_bind (integer 2 (withoutLines ds)) _
    · rename_i ds heq
      cases heq
      have hds : ∀ c ∈ withoutLines ds, (digit? 16 c).isSome = true :=
        isSome_digit?_of_all (Bool.and_eq_true_iff.1 h).2 fun c hc hdigit =>
          isSome_digit?_sixteen (by simpa [hc] using hdigit)
      rw [intFault?]
      refine fault?_int_of_base (by simp) ?_ hds
      rw [int, hlines, withoutLines_cons (by decide)]
      exact fault?_bind (integer 16 (withoutLines ds)) _
    · rename_i hb hx heq
      cases heq
      have hds : ∀ c ∈ withoutLines rest, (digit? 8 c).isSome = true :=
        isSome_digit?_of_all (Bool.and_eq_true_iff.1 h).2 fun c hc hdigit =>
          isSome_digit?_eight (by simpa [hc] using hdigit)
      have hnone : intFault? ('0' :: rest) = none := by
        rw [intFault?.eq_def]
        split
        · rename_i heq
          exact absurd (List.cons.inj heq).2 (hb _)
        · rename_i heq
          exact absurd (List.cons.inj heq).2 (hx _)
        · rfl
        · rename_i hzero
          exact absurd rfl (hzero rest)
      rw [hnone, fault?_int_of_octal hlines hds]
      rfl
    · cases h

/-- The fault of what looks like an integer. -/
theorem fault?_int {w : List Char} (h : isInt w = true) :
    fault? (int w) = (intFault? (unsigned w)).map .value := by
  have h' := h
  rw [isInt] at h'
  dsimp only at h'
  simp only [Bool.or_eq_true] at h'
  rcases h' with ((hzero | hpositive) | hsexagesimal) | hbase
  · exact fault?_int_of_zero (of_decide_eq_true hzero) h
  · have hsplit : Blank.splitOn (· = ':') (unsigned w) = [unsigned w] := by
      refine Blank.splitOn_eq_singleton fun c hc => decide_eq_false ?_
      rintro rfl
      rw [isPositive, Bool.and_eq_true] at hpositive
      obtain ⟨_, _, -, -, hall⟩ := exists_cons_of_isDigits hpositive.1
      exact absurd (hall ':' hc) (by decide)
    exact fault?_int_of_isPositive hsplit hpositive (by simp)
  · rw [isSexagesimal] at hsexagesimal
    split at hsexagesimal
    · rename_i first second more hsplit
      simp only [Bool.and_eq_true, List.all_eq_true] at hsexagesimal
      obtain ⟨⟨hfirst, hsecond⟩, hmore⟩ := hsexagesimal
      exact fault?_int_of_isPositive hsplit hfirst (List.forall_mem_cons.2 ⟨hsecond, hmore⟩)
    · cases hsexagesimal
  · split at hbase
    · rename_i hbody
      exact fault?_int_of_zero hbody h
    · rename_i hbody
      exact fault?_int_of_zero hbody h
    · rename_i hbody
      exact fault?_int_of_zero hbody h
    · cases hbase

end Scalar
end ContainerDocs.Yaml
