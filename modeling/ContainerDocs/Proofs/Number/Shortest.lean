import ContainerDocs.Number.Shortest
import ContainerDocs.Proofs.Number.Binary64

/-!
# Shortest decimals read back

The shortest decimal of a finite number is read as that number. The decimals that are tried are
read back before one is taken; the exact decimal behind them is within the range in which decimals
are expanded, and taking zeros from the end of the digits keeps the value.

## Main statements

* `Shortest.readsAs_exact` — the exact decimal reads back.
* `Shortest.readsAs_decimal` — the shortest decimal reads back.
-/

namespace ContainerDocs

namespace Binary64

open Rounding

/-- A decimal within the range that is expanded is a quotient. -/
theorem ofDecimal_eq_ofRatio {negative : Bool} {d : Nat} {k : Int} (hd : d ≠ 0)
    (hlow : -400 ≤ digitCount d + k) (hhigh : digitCount d + k ≤ 400) :
    ofDecimal negative d k = ofRatio negative (scaled 10 d 1 k).1 (scaled 10 d 1 k).2 := by
  rw [ofDecimal, if_neg hd]
  dsimp only
  rw [if_neg (by omega), if_neg (by omega)]

end Binary64

namespace Shortest

open Binary64 Rounding

variable {negative : Bool} {m : Nat} {e : Int}

/-! ## The exact decimal -/

theorem exact_digits_ne_zero (hm : m ≠ 0) : (exact m e).digits ≠ 0 := by
  rw [exact]
  split_ifs
  · exact Nat.mul_ne_zero hm (Nat.pow_pos (by decide)).ne'
  · exact Nat.mul_ne_zero hm (Nat.pow_pos (by decide)).ne'

theorem exact_value (m : Nat) (e : Int) :
    ((exact m e).digits : ℚ) * 10 ^ (exact m e).exponent = m * 2 ^ e := by
  rw [exact]
  split_ifs with he
  · obtain ⟨k, rfl⟩ := Int.eq_ofNat_of_zero_le he
    simp
  · obtain ⟨k, hk⟩ := Int.eq_ofNat_of_zero_le (a := -e) (by omega)
    obtain rfl : e = -(k : Int) := by omega
    have hten : (10 : ℚ) ^ k = 2 ^ k * 5 ^ k := by rw [← mul_pow]; norm_num
    simp only [neg_neg, Int.toNat_natCast, Nat.pow_eq, Nat.cast_mul, Nat.cast_pow, Nat.cast_ofNat,
      zpow_neg, zpow_natCast, hten, mul_inv]
    field_simp

theorem two_pow_le_pow {n k : Nat} (base : Nat) (c : Nat) (hbase : 2 ^ c ≤ base) (h : n ≤ c * k) :
    2 ^ n ≤ base ^ k :=
  calc 2 ^ n ≤ 2 ^ (c * k) := Nat.pow_le_pow_right two_pos h
    _ = (2 ^ c) ^ k := Nat.pow_mul 2 c k
    _ ≤ base ^ k := Nat.pow_le_pow_left hbase k

/-- An exact decimal with a power of two has at most 400 digits. -/
theorem digitCount_mul_two_pow_le {k : Nat} (hm : m < 2 ^ 53) (hk : k ≤ 971) :
    digitCount (m * 2 ^ k) ≤ 400 := by
  rw [digitCount_le_iff (by decide)]
  calc m * 2 ^ k < 2 ^ 53 * 2 ^ k := Nat.mul_lt_mul_of_pos_right hm (Nat.pow_pos two_pos)
    _ = 2 ^ (53 + k) := (Nat.pow_add 2 53 k).symm
    _ ≤ 10 ^ 400 := two_pow_le_pow 10 3 (by decide) (by omega)

/-- An exact decimal with a power of five has at most 400 digits before the point. -/
theorem digitCount_mul_five_pow_le {k : Nat} (hm : m < 2 ^ 53) :
    digitCount (m * 5 ^ k) ≤ 400 + k := by
  have hten : 2 ^ 53 ≤ 10 ^ 400 := two_pow_le_pow 10 3 (by decide) (by decide)
  rw [digitCount_le_iff (by omega), Nat.pow_add]
  calc m * 5 ^ k < 10 ^ 400 * 5 ^ k :=
        Nat.mul_lt_mul_of_pos_right (hm.trans_le hten) (Nat.pow_pos (by decide))
    _ ≤ 10 ^ 400 * 10 ^ k := Nat.mul_le_mul_left _ (Nat.pow_le_pow_left (by decide) k)

/-- An exact decimal with a power of five has at most 400 zeros after the point. -/
theorem le_digitCount_mul_five_pow {k : Nat} (hm : m ≠ 0) (hk : k ≤ 1074) :
    k ≤ digitCount (m * 5 ^ k) + 400 := by
  by_contra hshort
  have hpos := digitCount_pos (m * 5 ^ k)
  obtain ⟨i, rfl⟩ := Nat.exists_eq_add_of_le (show 401 ≤ k by omega)
  have hsmall : m * 5 ^ (401 + i) < 10 ^ i := (digitCount_le_iff (by omega)).1 (by omega)
  have hlarge : 10 ^ i ≤ m * 5 ^ (401 + i) :=
    calc 10 ^ i = 2 ^ i * 5 ^ i := Nat.mul_pow 2 5 i
      _ ≤ 5 ^ 401 * 5 ^ i :=
          Nat.mul_le_mul_right _ (two_pow_le_pow 5 2 (by decide) (by omega))
      _ = 5 ^ (401 + i) := by rw [Nat.pow_add]
      _ ≤ m * 5 ^ (401 + i) := Nat.le_mul_of_pos_left _ (Nat.pos_of_ne_zero hm)
  omega

/-- The exact decimal is within the range that is expanded. -/
theorem exact_magnitude (hm : m ≠ 0) (h : IsCanonical m e) :
    -400 ≤ (digitCount (exact m e).digits : Int) + (exact m e).exponent ∧
      (digitCount (exact m e).digits : Int) + (exact m e).exponent ≤ 400 := by
  obtain ⟨hlt, hleast, hgreatest, -⟩ := h
  have hpos := digitCount_pos (exact m e).digits
  rw [exact] at hpos ⊢
  split_ifs at hpos ⊢ with he
  · have hhigh := digitCount_mul_two_pow_le hlt (k := e.toNat) (by omega)
    simp only [Nat.pow_eq] at hpos ⊢
    omega
  · have hhigh := digitCount_mul_five_pow_le hlt (k := (-e).toNat)
    have hlow := le_digitCount_mul_five_pow hm (k := (-e).toNat) (by omega)
    simp only [Nat.pow_eq] at hpos ⊢
    omega

/-- The exact decimal reads back. -/
theorem readsAs_exact (hm : m ≠ 0) (h : IsCanonical m e) :
    readsAs (.finite negative m e h) (exact m e) = true := by
  obtain ⟨hlow, hhigh⟩ := exact_magnitude hm h
  rw [readsAs, decide_eq_true_eq, isNegative,
    ofDecimal_eq_ofRatio (exact_digits_ne_zero hm) hlow hhigh]
  refine ofRatio_eq_finite h (scaled_den_pos (by decide) one_pos _) ?_
  rw [Prod.mk.eta, quotient_scaled (by decide), ← exact_value m e]
  simp [quotient]

/-! ## The shortest decimal -/

variable {x : Binary64} {d : Decimal}

theorem readsAs_of_candidate? {num den count : Nat} (h : candidate? x num den count = some d) :
    readsAs x d = true := by
  rw [candidate?] at h
  obtain ⟨n, den'⟩ := scaled 10 num den (-(leadingPlace num den - (count - 1 : Nat)))
  dsimp only at h
  split_ifs at h with hlow hfirst hsecond hfirst hsecond <;> cases h <;> assumption

theorem readsAs_trimZeros (h : readsAs x d = true) (bound : Nat) :
    readsAs x (trimZeros bound d) = true := by
  induction bound generalizing d with
  | zero => exact h
  | succ bound ih =>
    rw [trimZeros]
    split_ifs with hzero
    · obtain ⟨hne, hmod⟩ := hzero
      refine ih ?_
      rw [readsAs, decide_eq_true_eq] at h ⊢
      have hquotient : d.digits / 10 ≠ 0 := by omega
      rw [← ofDecimal_mul_ten hquotient, Nat.div_mul_cancel (Nat.dvd_of_mod_eq_zero hmod), h]
    · exact h

/-- The shortest decimal of a finite number reads back. -/
theorem readsAs_decimal (negative : Bool) (h : IsCanonical m e) :
    readsAs (.finite negative m e h) (decimal (.finite negative m e h)) = true := by
  by_cases hm : m = 0
  · subst hm
    obtain rfl : e = -1074 := h.2.2.2.resolve_left (by decide)
    rw [decimal, if_pos rfl, readsAs, decide_eq_true_eq]
    rfl
  · rw [decimal, if_neg hm]
    obtain ⟨num, den⟩ := scaled 2 m 1 e
    refine readsAs_trimZeros ?_ _
    cases hfound : (List.range' 1 17).findSome? (candidate? (.finite negative m e h) num den) with
    | none => exact readsAs_exact hm h
    | some d =>
      obtain ⟨count, -, hcandidate⟩ := List.exists_of_findSome?_eq_some hfound
      exact readsAs_of_candidate? hcandidate

end Shortest
end ContainerDocs
