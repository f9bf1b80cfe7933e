import ContainerDocs.Number.Binary64
import Mathlib.Data.Int.Log
import Mathlib.Data.Rat.Floor
import Mathlib.Tactic.FieldSimp
import Mathlib.Tactic.Linarith
import Mathlib.Tactic.Ring

/-!
# Laws of rounding

The number nearest to a quotient depends on the value of the quotient only, not on its numerator
and denominator, and a value of the format is rounded to itself.

## Main definitions

* `Rounding.quotient` — the value of a numerator and a denominator.

## Main statements

* `Rounding.quotient_scaled`, `Rounding.nearest_congr` — scaling and rounding by value.
* `Binary64.exponentFor_eq` — the exponent of a quotient by its binary logarithm.
* `Binary64.ofRatio_congr`, `Binary64.ofDecimal_mul_pow` — equal values are rounded alike.
* `Binary64.ofRatio_eq_finite` — a value of the format is rounded to itself.
-/

namespace ContainerDocs

namespace Rounding

/-! ## Quotients -/

/-- The value of a numerator and a denominator. -/
def quotient (p : Nat × Nat) : ℚ := p.1 / p.2

theorem quotient_pos {num den : Nat} (hnum : 0 < num) (hden : 0 < den) :
    0 < quotient (num, den) :=
  div_pos (Nat.cast_pos.2 hnum) (Nat.cast_pos.2 hden)

theorem mul_le_iff_le_quotient {p : Nat × Nat} {c : Nat} (hp : 0 < p.2) :
    p.2 * c ≤ p.1 ↔ (c : ℚ) ≤ quotient p := by
  rw [quotient, le_div_iff₀' (Nat.cast_pos.2 hp)]
  exact_mod_cast Iff.rfl

variable {base num den : Nat}

theorem scaled_den_pos (hbase : 0 < base) (hden : 0 < den) (e : Int) :
    0 < (scaled base num den e).2 := by
  rw [scaled]
  split_ifs
  · exact hden
  · exact Nat.mul_pos hden (Nat.pow_pos hbase)

theorem quotient_scaled (hbase : 0 < base) (e : Int) :
    quotient (scaled base num den e) = quotient (num, den) * (base : ℚ) ^ e := by
  have hbase' : (base : ℚ) ≠ 0 := Nat.cast_ne_zero.2 hbase.ne'
  rw [scaled]
  split_ifs with he
  · obtain ⟨k, rfl⟩ := Int.eq_ofNat_of_zero_le he
    simp only [quotient, Int.toNat_natCast, zpow_natCast, Nat.pow_eq, Nat.cast_mul, Nat.cast_pow]
    ring
  · obtain ⟨k, hk⟩ := Int.eq_ofNat_of_zero_le (a := -e) (by omega)
    obtain rfl : e = -(k : Int) := by omega
    simp only [quotient, neg_neg, Int.toNat_natCast, zpow_neg, zpow_natCast, Nat.pow_eq,
      Nat.cast_mul, Nat.cast_pow, div_eq_mul_inv, mul_inv]
    ring

/-! ## The nearest integer -/

theorem nearest_mul_right (n d : Nat) {c : Nat} (hc : 0 < c) :
    nearest (n * c) (d * c) = nearest n d := by
  have hlow : 2 * (n % d * c) < d * c ↔ 2 * (n % d) < d := by
    rw [← Nat.mul_assoc]
    exact Nat.mul_lt_mul_right hc
  have hhigh : d * c < 2 * (n % d * c) ↔ d < 2 * (n % d) := by
    rw [← Nat.mul_assoc]
    exact Nat.mul_lt_mul_right hc
  simp only [nearest, Nat.mul_div_mul_right n d hc, Nat.mul_mod_mul_right, hlow, hhigh]

theorem nearest_congr {p q : Nat × Nat} (hp : 0 < p.2) (hq : 0 < q.2)
    (h : quotient p = quotient q) : nearest p.1 p.2 = nearest q.1 q.2 := by
  have hcross : p.1 * q.2 = q.1 * p.2 := by
    rw [quotient, quotient, div_eq_div_iff (Nat.cast_ne_zero.2 hp.ne') (Nat.cast_ne_zero.2 hq.ne')]
      at h
    exact_mod_cast h
  calc nearest p.1 p.2 = nearest (p.1 * q.2) (p.2 * q.2) := (nearest_mul_right _ _ hq).symm
    _ = nearest (q.1 * p.2) (q.2 * p.2) := by rw [hcross, Nat.mul_comm p.2]
    _ = nearest q.1 q.2 := nearest_mul_right _ _ hp

theorem nearest_one (n : Nat) : nearest n 1 = n := by
  simp [nearest, Nat.mod_one]

/-! ## Decimal digits -/

theorem digitCount_le_iff {n k : Nat} (hk : 0 < k) : digitCount n ≤ k ↔ n < 10 ^ k :=
  Nat.length_toDigits_le_iff (by decide) hk

theorem digitCount_pos (n : Nat) : 0 < digitCount n := Nat.length_toDigits_pos

theorem digitCount_mul_ten {n : Nat} (hn : n ≠ 0) : digitCount (n * 10) = digitCount n + 1 := by
  rw [digitCount, Nat.toDigits_of_base_le (by decide) (by omega), Nat.mul_div_cancel n (by decide),
    List.length_append]
  rfl

end Rounding

namespace Binary64

open Rounding

variable {num den num' den' : Nat} {negative : Bool}

/-! ## Quotients -/

/-- The binary logarithm of a quotient is the difference of those of its parts or one less. -/
theorem log_quotient_bounds (hnum : 0 < num) (hden : 0 < den) :
    (num.log2 : Int) - den.log2 - 1 ≤ Int.log 2 (quotient (num, den)) ∧
      Int.log 2 (quotient (num, den)) < num.log2 - den.log2 + 1 := by
  have hnum_low : (2 : ℚ) ^ (num.log2 : Int) ≤ num := by
    exact_mod_cast Nat.log2_self_le hnum.ne'
  have hnum_high : (num : ℚ) < 2 ^ ((num.log2 : Int) + 1) := by
    exact_mod_cast Nat.lt_log2_self (n := num)
  have hden_low : (2 : ℚ) ^ (den.log2 : Int) ≤ den := by
    exact_mod_cast Nat.log2_self_le hden.ne'
  have hden_high : (den : ℚ) ≤ 2 ^ ((den.log2 : Int) + 1) := by
    exact_mod_cast (Nat.lt_log2_self (n := den)).le
  have hpos := quotient_pos hnum hden
  rw [← Int.zpow_le_iff_le_log one_lt_two hpos, ← Int.lt_zpow_iff_log_lt one_lt_two hpos,
    Nat.cast_ofNat, sub_sub, sub_add_eq_add_sub, zpow_sub₀ two_ne_zero, zpow_sub₀ two_ne_zero]
  constructor
  · exact div_le_div₀ (Nat.cast_nonneg _) hnum_low (Nat.cast_pos.2 hden) hden_high
  · exact div_lt_div₀ hnum_high hden_low (zpow_nonneg zero_le_two _) (zpow_pos two_pos _)

/-- The exponent of a quotient is 52 places below its first binary digit. -/
theorem exponentFor_eq (hnum : 0 < num) (hden : 0 < den) :
    exponentFor num den = max (-1074) (Int.log 2 (quotient (num, den)) - 52) := by
  obtain ⟨hlow, hhigh⟩ := log_quotient_bounds hnum hden
  -- the comparison tells which of the two possible logarithms it is
  have htest : ∀ e : Int, (scaled 2 num den (-e)).2 * Nat.pow 2 52 ≤ (scaled 2 num den (-e)).1 ↔
      e + 52 ≤ Int.log 2 (quotient (num, den)) := by
    intro e
    have hpower : (0 : ℚ) < 2 ^ e := zpow_pos two_pos e
    rw [mul_le_iff_le_quotient (scaled_den_pos two_pos hden _), quotient_scaled two_pos,
      ← Int.zpow_le_iff_le_log one_lt_two (quotient_pos hnum hden), Nat.cast_ofNat, zpow_neg,
      ← div_eq_mul_inv, le_div_iff₀ hpower, add_comm, zpow_add₀ two_ne_zero]
    norm_num
  simp only [exponentFor, htest]
  split_ifs <;> omega

def ofRounded (negative : Bool) (mantissa : Nat) (exponent : Int) : Binary64 :=
  if mantissa = Nat.pow 2 53 then ofParts negative (Nat.pow 2 52) (exponent + 1)
  else ofParts negative mantissa exponent

theorem ofRatio_of_scaled (hnum : num ≠ 0) {e : Int} {n d : Nat}
    (he : exponentFor num den = e) (hscaled : scaled 2 num den (-e) = (n, d)) :
    ofRatio negative num den = ofRounded negative (nearest n d) e := by
  rw [ofRatio, if_neg hnum, he]
  extract_lets
  rw [hscaled]
  rfl

theorem ofRatio_of_ne_zero (hnum : num ≠ 0) :
    ofRatio negative num den = ofRounded negative
      (nearest (scaled 2 num den (-exponentFor num den)).1
        (scaled 2 num den (-exponentFor num den)).2) (exponentFor num den) :=
  ofRatio_of_scaled hnum rfl Prod.mk.eta.symm

theorem ofRatio_congr (hden : 0 < den) (hden' : 0 < den')
    (h : quotient (num, den) = quotient (num', den')) :
    ofRatio negative num den = ofRatio negative num' den' := by
  have hcross : num * den' = num' * den := by
    rw [quotient, quotient, div_eq_div_iff (Nat.cast_ne_zero.2 hden.ne')
      (Nat.cast_ne_zero.2 hden'.ne')] at h
    exact_mod_cast h
  have hzero : num = 0 ↔ num' = 0 := by
    constructor <;> rintro rfl <;> simpa [hden.ne', hden'.ne'] using hcross
  by_cases hnum : num = 0
  · rw [ofRatio, ofRatio, if_pos hnum, if_pos (hzero.1 hnum)]
  · have hnum' := mt hzero.2 hnum
    have hexponent : exponentFor num den = exponentFor num' den' := by
      rw [exponentFor_eq (by omega) hden, exponentFor_eq (by omega) hden', h]
    have hnearest := nearest_congr (scaled_den_pos two_pos hden (-exponentFor num' den'))
      (scaled_den_pos two_pos hden' (-exponentFor num' den'))
      (by rw [quotient_scaled two_pos, quotient_scaled two_pos, h])
    rw [ofRatio_of_ne_zero hnum, ofRatio_of_ne_zero hnum', hexponent, hnearest]

/-! ## Values of the format -/

variable {m : Nat} {e : Int}

/-- A mantissa of the format with its exponent has that exponent again. -/
theorem log_mantissa (hm : m ≠ 0) (h : IsCanonical m e) :
    max (-1074) (Int.log 2 ((m : ℚ) * 2 ^ e) - 52) = e := by
  obtain ⟨hlt, hleast, -, hfull⟩ := h
  have hpos : (0 : ℚ) < m * 2 ^ e := mul_pos (Nat.cast_pos.2 (by omega)) (zpow_pos two_pos e)
  have hhigh : Int.log 2 ((m : ℚ) * 2 ^ e) < 53 + e := by
    rw [← Int.lt_zpow_iff_log_lt one_lt_two hpos, Nat.cast_ofNat, zpow_add₀ two_ne_zero]
    refine mul_lt_mul_of_pos_right ?_ (zpow_pos two_pos e)
    exact_mod_cast hlt
  obtain hnormal | rfl := hfull
  · have hlow : 52 + e ≤ Int.log 2 ((m : ℚ) * 2 ^ e) := by
      rw [← Int.zpow_le_iff_le_log one_lt_two hpos, Nat.cast_ofNat, zpow_add₀ two_ne_zero]
      refine mul_le_mul_of_nonneg_right ?_ (zpow_nonneg zero_le_two e)
      exact_mod_cast hnormal
    omega
  · omega

/-- A value of the format is rounded to itself. -/
theorem ofRatio_eq_finite (h : IsCanonical m e) (hden : 0 < den)
    (hvalue : quotient (num, den) = m * 2 ^ e) :
    ofRatio negative num den = .finite negative m e h := by
  have hpower : (2 : ℚ) ^ e ≠ 0 := zpow_ne_zero e two_ne_zero
  have hzero : num = 0 ↔ m = 0 := by
    rw [← Nat.cast_eq_zero (R := ℚ), ← Nat.cast_eq_zero (R := ℚ) (n := m)]
    constructor <;> intro h0 <;> simpa [quotient, h0, hden.ne', hpower] using hvalue
  by_cases hm : m = 0
  · subst hm
    obtain rfl : e = -1074 := h.2.2.2.resolve_left (by decide)
    rw [ofRatio, if_pos (hzero.2 rfl)]
    rfl
  · have hnum := mt hzero.1 hm
    have hexponent : exponentFor num den = e := by
      rw [exponentFor_eq (by omega) hden, hvalue, log_mantissa hm h]
    have hnearest : nearest (scaled 2 num den (-e)).1 (scaled 2 num den (-e)).2 = m := by
      rw [nearest_congr (q := (m, 1)) (scaled_den_pos two_pos hden _) one_pos, nearest_one]
      rw [quotient_scaled two_pos, hvalue, zpow_neg, Nat.cast_ofNat, mul_assoc,
        mul_inv_cancel₀ hpower]
      simp [quotient]
    rw [ofRatio_of_ne_zero hnum, hexponent, hnearest, ofRounded, if_neg h.1.ne, ofParts, dif_pos h]

/-! ## Decimals -/

theorem ofDecimal_zero (negative : Bool) (k : Int) : ofDecimal negative 0 k = zero negative := by
  rw [ofDecimal, if_pos rfl]

theorem ofDecimal_mul_ten {d : Nat} (hd : d ≠ 0) (k : Int) :
    ofDecimal negative (d * 10) k = ofDecimal negative d (k + 1) := by
  have hmagnitude : (digitCount (d * 10) : Int) + k = digitCount d + (k + 1) := by
    rw [digitCount_mul_ten hd]
    push_cast
    ring
  have hratio : ofRatio negative (scaled 10 (d * 10) 1 k).1 (scaled 10 (d * 10) 1 k).2 =
      ofRatio negative (scaled 10 d 1 (k + 1)).1 (scaled 10 d 1 (k + 1)).2 := by
    apply ofRatio_congr (scaled_den_pos (by decide) one_pos k)
      (scaled_den_pos (by decide) one_pos (k + 1))
    rw [Prod.mk.eta, Prod.mk.eta, quotient_scaled (by decide), quotient_scaled (by decide),
      Nat.cast_ofNat, zpow_add_one₀ (by norm_num)]
    simp only [quotient, Nat.cast_mul, Nat.cast_ofNat]
    ring
  rw [ofDecimal, ofDecimal, if_neg (by omega), if_neg hd]
  dsimp only
  rw [hmagnitude, hratio]

/-- Zeros at the end of the digits count as a higher exponent. -/
theorem ofDecimal_mul_pow {d : Nat} (hd : d ≠ 0) (n : Nat) (k : Int) :
    ofDecimal negative (d * 10 ^ n) k = ofDecimal negative d (k + n) := by
  induction n generalizing k with
  | zero => simp
  | succ n ih =>
    have hne : d * 10 ^ n ≠ 0 := Nat.mul_ne_zero hd (Nat.pow_pos (by decide)).ne'
    rw [Nat.pow_succ, ← Nat.mul_assoc, ofDecimal_mul_ten hne, ih]
    congr 1
    push_cast
    ring

end Binary64
end ContainerDocs
