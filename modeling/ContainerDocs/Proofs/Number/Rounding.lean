import ContainerDocs.Proofs.Number.Binary64

/-!
# What rounding does

The integer nearest to a quotient is one within a half of it, and of two equally near ones the even
one. Rounding to an integer keeps the order, and so does rounding to the numbers of the format. A
quotient is rounded to an infinity from a limit on.

## Main definitions

* `Rounding.IsNearest` — an integer is the nearest one to a number.
* `Binary64.limit` — the least quotient that is rounded to an infinity.
* `Binary64.RoundsTo` — the value that a number is rounded to.
* `Binary64.HasValue` — the absolute value of a finite number.

## Main statements

* `Rounding.isNearest_nearest`, `Rounding.IsNearest.le` — the nearest integer, and its order.
* `Binary64.ofRatio_eq_infinity_iff` — which quotients are out of range.
* `Binary64.exists_hasValue_ofRatio` — what the quotients in range are rounded to.
* `Binary64.RoundsTo.le`, `Binary64.RoundsTo.exact` — rounding keeps the order, and a number of at
  most 53 binary digits.
-/

namespace ContainerDocs

namespace Rounding

/-! ## The nearest integer -/

/-- Whether an integer is the nearest one to a number, and the even one of two equally near. -/
def IsNearest (q : ℚ) (n : Nat) : Prop := |q - n| ≤ 1 / 2 ∧ (|q - n| = 1 / 2 → Even n)

theorem isNearest_natCast (n : Nat) : IsNearest n n := by
  rw [IsNearest, sub_self, abs_zero]
  exact ⟨by norm_num, by norm_num⟩

/-- Rounding keeps the order. -/
theorem IsNearest.le {q r : ℚ} {m n : Nat} (hm : IsNearest q m) (hn : IsNearest r n)
    (hle : q ≤ r) : m ≤ n := by
  by_contra hlt
  have hstep : (n : ℚ) + 1 ≤ m := by exact_mod_cast Nat.lt_of_not_le hlt
  obtain ⟨hqm, htie⟩ := hm
  obtain ⟨hrn, htie'⟩ := hn
  rw [abs_le] at hqm hrn
  -- Both numbers are in the middle between `n` and `m`, which cannot both be even.
  have hq : q - m = -(1 / 2) := by linarith
  have hr : r - n = 1 / 2 := by linarith
  have hsucc : m = n + 1 := by
    have hcast : (m : ℚ) = n + 1 := by linarith
    exact_mod_cast hcast
  have heven := htie (by rw [hq]; norm_num)
  have heven' := htie' (by rw [hr]; norm_num)
  rw [hsucc, Nat.even_add_one] at heven
  exact heven heven'

theorem IsNearest.unique {q : ℚ} {m n : Nat} (hm : IsNearest q m) (hn : IsNearest q n) : m = n :=
  Nat.le_antisymm (hm.le hn le_rfl) (hn.le hm le_rfl)

theorem nearest_cases (n d : Nat) :
    (nearest n d = n / d ∧ 2 * (n % d) ≤ d ∧ (2 * (n % d) = d → Even (n / d))) ∨
      (nearest n d = n / d + 1 ∧ d ≤ 2 * (n % d) ∧ (2 * (n % d) = d → Even (n / d + 1))) := by
  unfold nearest
  extract_lets q r
  rw [Nat.even_iff, Nat.even_iff]
  split_ifs
  · exact .inl ⟨rfl, by omega, by omega⟩
  · exact .inr ⟨rfl, by omega, by omega⟩
  · exact .inl ⟨rfl, by omega, fun _ => by omega⟩
  · exact .inr ⟨rfl, by omega, by omega⟩

/-- The quotient is the whole part with a fraction below one. -/
theorem quotient_eq {n d : Nat} (hd : 0 < d) :
    quotient (n, d) = (n / d : Nat) + ((n % d : Nat) : ℚ) / d := by
  have hd' : (d : ℚ) ≠ 0 := Nat.cast_ne_zero.2 hd.ne'
  have hdiv : ((n / d : Nat) : ℚ) * d + (n % d : Nat) = n := by
    exact_mod_cast Nat.div_add_mod' n d
  rw [add_div' _ _ _ hd', hdiv, quotient]

theorem isNearest_nearest {p : Nat × Nat} (hp : 0 < p.2) :
    IsNearest (quotient p) (nearest p.1 p.2) := by
  obtain ⟨n, d⟩ := p
  have hd : (0 : ℚ) < d := Nat.cast_pos.2 hp
  obtain ⟨x, hx⟩ : ∃ x : ℚ, x = ((n % d : Nat) : ℚ) / d := ⟨_, rfl⟩
  have hnonneg : 0 ≤ x := hx ▸ div_nonneg (Nat.cast_nonneg _) hd.le
  have hlt : x < 1 := by
    rw [hx, div_lt_one hd]
    exact_mod_cast Nat.mod_lt n hp
  have hlow : 2 * (n % d) ≤ d ↔ x ≤ 1 / 2 := by
    rw [hx, div_le_div_iff₀ hd two_pos, ← Nat.cast_le (α := ℚ)]
    push_cast
    constructor <;> intro h <;> linarith
  have hhigh : d ≤ 2 * (n % d) ↔ 1 / 2 ≤ x := by
    rw [hx, div_le_div_iff₀ two_pos hd, ← Nat.cast_le (α := ℚ)]
    push_cast
    constructor <;> intro h <;> linarith
  rw [quotient_eq hp, ← hx]
  obtain ⟨heq, hhalf, htie⟩ | ⟨heq, hhalf, htie⟩ := nearest_cases n d
  · rw [heq, IsNearest, add_sub_cancel_left, abs_of_nonneg hnonneg]
    refine ⟨hlow.1 hhalf, fun h => htie ?_⟩
    exact Nat.le_antisymm hhalf (hhigh.2 h.ge)
  · have hdistance : |((n / d : Nat) : ℚ) + x - (n / d + 1 : Nat)| = 1 - x := by
      rw [Nat.cast_add_one, add_sub_add_left_eq_sub, abs_sub_comm, abs_of_pos (sub_pos.2 hlt)]
    rw [heq, IsNearest, hdistance]
    refine ⟨by linarith [hhigh.1 hhalf], fun h => htie ?_⟩
    exact Nat.le_antisymm (hlow.2 (by linarith)) hhalf

/-! ## Bounds of the nearest integer -/

variable {p : Nat × Nat} {c : Nat}

/-- A quotient below an integer is not rounded beyond it. -/
theorem nearest_le (hp : 0 < p.2) (h : quotient p < c) : nearest p.1 p.2 ≤ c :=
  (isNearest_nearest hp).le (isNearest_natCast c) h.le

/-- A quotient that reaches an integer is not rounded below it. -/
theorem le_nearest (hp : 0 < p.2) (h : (c : ℚ) ≤ quotient p) : c ≤ nearest p.1 p.2 :=
  (isNearest_natCast c).le (isNearest_nearest hp) h

/-- The quotients below an even integer that are rounded to it are those from one half below it
on. -/
theorem nearest_eq_iff (hp : 0 < p.2) (hc : Even c) (h : quotient p < c) :
    nearest p.1 p.2 = c ↔ (c : ℚ) - 1 / 2 ≤ quotient p := by
  have hnearest := isNearest_nearest hp
  constructor
  · rintro rfl
    linarith [(abs_le.1 hnearest.1).1]
  · intro hle
    refine hnearest.unique ⟨abs_le.2 ⟨by linarith, by linarith⟩, fun _ => hc⟩

end Rounding

namespace Binary64

open Rounding

/-! ## Quotients out of range -/

/-- The least quotient that is rounded to an infinity: the middle between the greatest number of the
format and the next power of two. -/
def limit : ℚ := (2 ^ 53 - 1 / 2) * 2 ^ 971

variable {num den : Nat} {negative : Bool}

/-- A rounded mantissa has at most one digit more than 53, and at least 53 unless the exponent is
the least one. -/
theorem ofRounded_eq_infinity_iff {m : Nat} {e : Int} (hm : m ≤ 2 ^ 53) (he : -1074 ≤ e)
    (hfull : 2 ^ 52 ≤ m ∨ e = -1074) :
    (∃ s, ofRounded negative m e = .infinity s) ↔ 972 ≤ e ∨ (e = 971 ∧ m = 2 ^ 53) := by
  have hparts : ∀ (m : Nat) (e : Int), (∃ s, ofParts negative m e = .infinity s) ↔
      ¬IsCanonical m e := by
    intro m e
    rw [ofParts]
    split_ifs with h <;> simp [h]
  have hpow : Nat.pow 2 52 = 2 ^ 52 ∧ Nat.pow 2 53 = 2 ^ 53 := ⟨rfl, rfl⟩
  rw [ofRounded]
  split_ifs with h53
  · rw [hparts, IsCanonical]
    omega
  · rw [hparts, IsCanonical]
    omega

/-- A quotient that is rounded to a mantissa has 53 binary digits before the point, or fewer at the
least exponent. -/
theorem scaled_bounds {q : ℚ} (hq : 0 < q) {e : Int} (he : e = max (-1074) (Int.log 2 q - 52)) :
    q * 2 ^ (-e) < 2 ^ 53 ∧ (e ≠ -1074 → 2 ^ 52 ≤ q * 2 ^ (-e)) := by
  have hlow : 2 ^ Int.log 2 q ≤ q := by
    have h := Int.zpow_log_le_self (b := 2) one_lt_two hq
    rwa [Nat.cast_ofNat] at h
  have hhigh : q < 2 ^ (Int.log 2 q + 1) := by
    have h := Int.lt_zpow_succ_log_self (b := 2) one_lt_two q
    rwa [Nat.cast_ofNat] at h
  have hpower : (0 : ℚ) < 2 ^ (-e) := zpow_pos two_pos _
  constructor
  · calc q * 2 ^ (-e) < 2 ^ (Int.log 2 q + 1) * 2 ^ (-e) := mul_lt_mul_of_pos_right hhigh hpower
      _ = 2 ^ (Int.log 2 q + 1 + -e) := (zpow_add₀ two_ne_zero _ _).symm
      _ ≤ 2 ^ (53 : Int) := zpow_le_zpow_right₀ one_le_two (by omega)
      _ = 2 ^ 53 := zpow_ofNat 2 53
  · intro hleast
    calc (2 : ℚ) ^ 52 = 2 ^ (52 : Int) := (zpow_ofNat 2 52).symm
      _ ≤ 2 ^ (Int.log 2 q + -e) := zpow_le_zpow_right₀ one_le_two (by omega)
      _ = 2 ^ Int.log 2 q * 2 ^ (-e) := zpow_add₀ two_ne_zero _ _
      _ ≤ q * 2 ^ (-e) := mul_le_mul_of_nonneg_right hlow hpower.le

/-- A quotient with a mantissa reaches the limit if its exponent is too large, or if it is the
greatest one and the mantissa is rounded up to the next power of two. -/
theorem limit_le_iff {y : ℚ} {e : Int} (hhigh : y < 2 ^ 53) (hlow : e ≠ -1074 → 2 ^ 52 ≤ y) :
    limit ≤ y * 2 ^ e ↔ 972 ≤ e ∨ (e = 971 ∧ 2 ^ 53 - 1 / 2 ≤ y) := by
  have hlimit : limit = (2 ^ 53 - 1 / 2) * 2 ^ (971 : Int) := by rw [limit, zpow_ofNat]
  have hstep : ∀ k : Int, (2 : ℚ) ^ (k + 1) = 2 ^ k * 2 := zpow_add_one₀ two_ne_zero
  obtain hless | rfl | hmore : e < 971 ∨ e = 971 ∨ 971 < e := lt_trichotomy e 971
  · refine iff_of_false (not_le.2 ?_) (by omega)
    have hhalf : ∀ a : ℚ, 0 < a → 2 ^ 53 * a ≤ (2 ^ 53 - 1 / 2) * (a * 2) := by
      intro a ha
      linarith
    calc y * 2 ^ e < 2 ^ 53 * 2 ^ e := mul_lt_mul_of_pos_right hhigh (zpow_pos two_pos _)
      _ ≤ 2 ^ 53 * 2 ^ (970 : Int) :=
        mul_le_mul_of_nonneg_left (zpow_le_zpow_right₀ one_le_two (by omega)) (by positivity)
      _ ≤ (2 ^ 53 - 1 / 2) * (2 ^ (970 : Int) * 2) := hhalf _ (zpow_pos two_pos _)
      _ = limit := by rw [hlimit, ← hstep]; rfl
  · simp [hlimit]
  · refine iff_of_true ?_ (.inl hmore)
    have hhalf : ∀ a : ℚ, 0 < a → (2 ^ 53 - 1 / 2) * a ≤ 2 ^ 52 * (a * 2) := by
      intro a ha
      linarith
    calc limit ≤ 2 ^ 52 * (2 ^ (971 : Int) * 2) := by
          rw [hlimit]
          exact hhalf _ (zpow_pos two_pos _)
      _ = 2 ^ 52 * 2 ^ (972 : Int) := by rw [← hstep]; rfl
      _ ≤ 2 ^ 52 * 2 ^ e :=
        mul_le_mul_of_nonneg_left (zpow_le_zpow_right₀ one_le_two hmore) (by positivity)
      _ ≤ y * 2 ^ e := mul_le_mul_of_nonneg_right (hlow (by omega)) (zpow_nonneg zero_le_two _)

/-- The quotients that are rounded to an infinity are those from the limit on. -/
theorem ofRatio_eq_infinity_iff (hnum : 0 < num) (hden : 0 < den) :
    (∃ s, ofRatio negative num den = .infinity s) ↔ limit ≤ quotient (num, den) := by
  obtain ⟨e, he⟩ : ∃ e, e = exponentFor num den := ⟨_, rfl⟩
  let p := scaled 2 num den (-e)
  have hp : 0 < p.2 := scaled_den_pos two_pos hden _
  have hvalue : quotient p = quotient (num, den) * 2 ^ (-e) := by
    rw [quotient_scaled two_pos, Nat.cast_ofNat]
  have hexponent := he.trans (exponentFor_eq hnum hden)
  obtain ⟨hhigh, hlow⟩ := scaled_bounds (quotient_pos hnum hden) hexponent
  rw [← hvalue] at hhigh hlow
  have hquotient : quotient (num, den) = quotient p * 2 ^ e := by
    rw [hvalue, mul_assoc, ← zpow_add₀ two_ne_zero, neg_add_cancel, zpow_zero, mul_one]
  obtain ⟨c, hc⟩ : ∃ c : Nat, c = 2 ^ 53 := ⟨_, rfl⟩
  have hcast : (c : ℚ) = 2 ^ 53 := by rw [hc, Nat.cast_pow, Nat.cast_ofNat]
  have hbelow : quotient p < c := hhigh.trans_eq hcast.symm
  have hfull : 2 ^ 52 ≤ nearest p.1 p.2 ∨ e = -1074 := by
    refine or_iff_not_imp_right.2 fun hleast => le_nearest hp ?_
    rw [Nat.cast_pow, Nat.cast_ofNat]
    exact hlow hleast
  rw [ofRatio_of_scaled hnum.ne' he.symm Prod.mk.eta.symm,
    ofRounded_eq_infinity_iff (hc ▸ nearest_le hp hbelow) (by omega) hfull, ← hc,
    nearest_eq_iff hp (hc ▸ by decide) hbelow, hcast, hquotient, limit_le_iff hhigh hlow]

/-! ## Values of rounded quotients -/

def exponentOf (q : ℚ) : Int := max (-1074) (Int.log 2 q - 52)

/-- The number `v` is what `q` is rounded to, apart from the greatest exponent. -/
def RoundsTo (q v : ℚ) : Prop :=
  ∃ m : Nat, IsNearest (q * 2 ^ (-exponentOf q)) m ∧ v = m * 2 ^ exponentOf q

/-- The number is finite and has the absolute value `v`. -/
def HasValue (x : Binary64) (v : ℚ) : Prop :=
  ∃ p, x.ratio? = some p ∧ 0 < p.2 ∧ quotient p = v

section Values

variable {q r v w : ℚ} {x : Binary64}

theorem RoundsTo.zero : RoundsTo 0 0 := by
  refine ⟨0, ?_, by simp⟩
  simpa using isNearest_natCast 0

theorem RoundsTo.nonneg (h : RoundsTo q v) : 0 ≤ v := by
  obtain ⟨m, -, rfl⟩ := h
  exact mul_nonneg (Nat.cast_nonneg m) (zpow_nonneg zero_le_two _)

theorem RoundsTo.eq_zero (h : RoundsTo 0 v) : v = 0 := by
  obtain ⟨m, hm, rfl⟩ := h
  rw [zero_mul] at hm
  rw [hm.unique (by simpa using isNearest_natCast 0), Nat.cast_zero, zero_mul]

/-- Rounding keeps the order. -/
theorem RoundsTo.le (hv : RoundsTo q v) (hw : RoundsTo r w) (hq : 0 ≤ q) (hle : q ≤ r) : v ≤ w := by
  obtain rfl | hpos := hq.eq_or_lt
  · rw [hv.eq_zero]
    exact hw.nonneg
  obtain ⟨m, hm, rfl⟩ := hv
  obtain ⟨n, hn, rfl⟩ := hw
  have hexponent : exponentOf q ≤ exponentOf r :=
    max_le_max le_rfl (sub_le_sub_right (Int.log_mono_right hpos hle) 52)
  obtain heq | hlt := hexponent.eq_or_lt
  · rw [heq] at hm ⊢
    have hmn : m ≤ n := hm.le hn (mul_le_mul_of_nonneg_right hle (zpow_nonneg zero_le_two _))
    exact mul_le_mul_of_nonneg_right (Nat.cast_le.2 hmn) (zpow_nonneg zero_le_two _)
  · -- The greater exponent leaves a full mantissa for the greater number.
    obtain ⟨c, hc⟩ : ∃ c : Nat, c = 2 ^ 52 := ⟨_, rfl⟩
    have hcast : (c : ℚ) = 2 ^ 52 := by rw [hc, Nat.cast_pow, Nat.cast_ofNat]
    have hm53 : m ≤ 2 * c := by
      refine hm.le (isNearest_natCast _) ((scaled_bounds hpos rfl).1.le.trans_eq ?_)
      rw [Nat.cast_mul, hcast, Nat.cast_ofNat, ← pow_succ']
    have hn52 : c ≤ n := by
      refine (isNearest_natCast c).le hn (hcast.trans_le ?_)
      refine (scaled_bounds (hpos.trans_le hle) rfl).2 (ne_of_gt ?_)
      exact (le_max_left _ _).trans_lt hlt
    calc (m : ℚ) * 2 ^ exponentOf q
      _ ≤ (2 * c : Nat) * 2 ^ exponentOf q :=
        mul_le_mul_of_nonneg_right (Nat.cast_le.2 hm53) (zpow_nonneg zero_le_two _)
      _ = c * 2 ^ (exponentOf q + 1) := by
        rw [zpow_add_one₀ two_ne_zero, Nat.cast_mul, Nat.cast_ofNat]
        ring
      _ ≤ n * 2 ^ exponentOf r :=
        mul_le_mul (Nat.cast_le.2 hn52) (zpow_le_zpow_right₀ one_le_two hlt)
          (zpow_nonneg zero_le_two _) (Nat.cast_nonneg n)

/-- A number of at most 53 binary digits is rounded to itself. -/
theorem RoundsTo.exact {k : Nat} {e : Int} (h : RoundsTo q v) (hq : q = k * 2 ^ e)
    (hk : k < 2 ^ 53) (he : -1074 ≤ e) : v = q := by
  obtain rfl | hpos := Nat.eq_zero_or_pos k
  · rw [hq, Nat.cast_zero, zero_mul] at h ⊢
    exact h.eq_zero
  obtain ⟨m, hm, rfl⟩ := h
  have hexponent : exponentOf q ≤ e := by
    have hpos' : 0 < q := hq ▸ mul_pos (Nat.cast_pos.2 hpos) (zpow_pos two_pos e)
    have hlog : Int.log 2 q < 53 + e := by
      rw [← Int.lt_zpow_iff_log_lt one_lt_two hpos', hq, Nat.cast_ofNat, zpow_add₀ two_ne_zero]
      refine mul_lt_mul_of_pos_right ?_ (zpow_pos two_pos e)
      exact_mod_cast hk
    exact max_le he (by omega)
  obtain ⟨j, hj⟩ := Int.eq_ofNat_of_zero_le (sub_nonneg.2 hexponent)
  have hscaled : q * 2 ^ (-exponentOf q) = (k * 2 ^ j : Nat) := by
    rw [Nat.cast_mul, Nat.cast_pow, Nat.cast_ofNat, ← zpow_natCast, ← hj, sub_eq_add_neg,
      zpow_add₀ two_ne_zero, ← mul_assoc, ← hq]
  rw [hscaled] at hm
  rw [hm.unique (isNearest_natCast _), ← hscaled, mul_assoc, ← zpow_add₀ two_ne_zero,
    neg_add_cancel, zpow_zero, mul_one]

theorem hasValue_ofParts {m : Nat} {e : Int} (h : ∀ s, ofParts negative m e ≠ .infinity s) :
    HasValue (ofParts negative m e) (m * 2 ^ e) := by
  rw [ofParts] at h ⊢
  split_ifs at h ⊢ with hcanonical
  · refine ⟨scaled 2 m 1 e, rfl, scaled_den_pos two_pos one_pos e, ?_⟩
    rw [quotient_scaled two_pos, quotient, Nat.cast_one, div_one, Nat.cast_ofNat]
  · exact absurd rfl (h negative)

theorem hasValue_ofRounded {m : Nat} {e : Int} (h : ∀ s, ofRounded negative m e ≠ .infinity s) :
    HasValue (ofRounded negative m e) (m * 2 ^ e) := by
  rw [ofRounded] at h ⊢
  split_ifs at h ⊢ with hm
  · have hvalue : (m : ℚ) * 2 ^ e = (Nat.pow 2 52 : Nat) * 2 ^ (e + 1) := by
      have hstep : Nat.pow 2 53 = Nat.pow 2 52 * 2 := rfl
      rw [hm, hstep, Nat.cast_mul, Nat.cast_ofNat, zpow_add_one₀ two_ne_zero]
      ring
    rw [hvalue]
    exact hasValue_ofParts h
  · exact hasValue_ofParts h

/-- A quotient in range is rounded to the value of a number. -/
theorem exists_hasValue_ofRatio (hden : 0 < den)
    (h : ∀ s, ofRatio negative num den ≠ .infinity s) :
    ∃ v, HasValue (ofRatio negative num den) v ∧ RoundsTo (quotient (num, den)) v := by
  obtain rfl | hnum := Nat.eq_zero_or_pos num
  · refine ⟨0, ?_, ?_⟩
    · rw [ofRatio, if_pos rfl]
      refine ⟨scaled 2 0 1 (-1074), rfl, scaled_den_pos two_pos one_pos _, ?_⟩
      rw [quotient_scaled two_pos, quotient, Nat.cast_zero, zero_div, zero_mul]
    · simpa [quotient] using RoundsTo.zero
  · have hexponent : exponentFor num den = exponentOf (quotient (num, den)) :=
      exponentFor_eq hnum hden
    rw [ofRatio_of_ne_zero hnum.ne'] at h ⊢
    refine ⟨_, hasValue_ofRounded h, _, ?_, by rw [hexponent]⟩
    have hpos : 0 < (scaled 2 num den (-exponentFor num den)).2 := scaled_den_pos two_pos hden _
    have hnearest := isNearest_nearest hpos
    rwa [quotient_scaled two_pos, Nat.cast_ofNat, hexponent] at hnearest

theorem isNegative_ofParts (m : Nat) (e : Int) :
    (ofParts negative m e).isNegative = negative := by
  rw [ofParts]
  split_ifs <;> rfl

theorem isNegative_ofRatio : (ofRatio negative num den).isNegative = negative := by
  obtain rfl | hnum := Nat.eq_zero_or_pos num
  · rw [ofRatio, if_pos rfl]
    rfl
  · rw [ofRatio_of_ne_zero hnum.ne', ofRounded]
    split_ifs <;> exact isNegative_ofParts _ _

theorem isNegative_divNat (h : HasValue x v) (n : Nat) :
    (x.divNat n).isNegative = x.isNegative := by
  obtain ⟨p, hratio, -⟩ := h
  rw [divNat, hratio, isNegative_ofRatio]

/-- The values of numbers stay far below the limit of larger quotients. -/
theorem HasValue.lt_limit (h : HasValue x v) {n : Nat} (hn : 2 ≤ n) : v / n < limit := by
  obtain ⟨p, hratio, -, rfl⟩ := h
  cases x with
  | finite s m e hcanonical =>
    cases hratio
    obtain ⟨hm, -, he, -⟩ := hcanonical
    have hmantissa : (m : ℚ) ≤ 2 ^ 53 := by
      have hle : (m : ℚ) ≤ (Nat.pow 2 53 : Nat) := Nat.cast_le.2 hm.le
      rwa [Nat.pow_eq, Nat.cast_pow, Nat.cast_ofNat] at hle
    have hpower : (0 : ℚ) < 2 ^ 971 := pow_pos two_pos 971
    rw [quotient_scaled two_pos, quotient, Nat.cast_one, div_one, Nat.cast_ofNat]
    calc (m : ℚ) * 2 ^ e / n
      _ ≤ 2 ^ 53 * 2 ^ (971 : Int) / 2 :=
        div_le_div₀ (mul_nonneg (by norm_num) (zpow_nonneg zero_le_two _))
          (mul_le_mul hmantissa (zpow_le_zpow_right₀ one_le_two he) (zpow_nonneg zero_le_two _)
            (by norm_num)) two_pos (by exact_mod_cast hn)
      _ = 2 ^ 52 * 2 ^ 971 := by
        rw [zpow_ofNat, pow_succ' 2 52, mul_assoc, mul_div_cancel_left₀ _ two_ne_zero]
      _ < limit := mul_lt_mul_of_pos_right (by norm_num) hpower
  | infinity s => cases hratio
  | nan => cases hratio

/-- A quotient of a number is in range. -/
theorem exists_hasValue_divNat (h : HasValue x v) {n : Nat} (hn : 2 ≤ n) :
    ∃ w, HasValue (x.divNat n) w ∧ RoundsTo (v / n) w := by
  have hlimit := h.lt_limit hn
  obtain ⟨⟨num, den⟩, hratio, hden, rfl⟩ := h
  have hden' : 0 < den * n := Nat.mul_pos hden (by omega)
  have hquotient : quotient (num, den * n) = quotient (num, den) / n := by
    rw [quotient, quotient, Nat.cast_mul, div_div]
  rw [divNat, hratio, ← hquotient]
  refine exists_hasValue_ofRatio hden' fun s hs => ?_
  obtain rfl | hnum := Nat.eq_zero_or_pos num
  · rw [ofRatio, if_pos rfl] at hs
    cases hs
  · have hle := (ofRatio_eq_infinity_iff hnum hden').1 ⟨s, hs⟩
    exact absurd hle (not_le.2 (hquotient ▸ hlimit))

end Values

end Binary64
end ContainerDocs
