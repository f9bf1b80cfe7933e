import ContainerDocs.Image.Stats
import ContainerDocs.Proofs.Number.Rounding

/-!
# Printed sizes

A size has a printed form unless the first division by 1024 leaves the range of floating point
numbers. Up to `2 ^ 53` bytes neither division loses anything, so the two printed places are those
of the exact quotient. Beyond, both divisions keep the order.

## Main definitions

* `Size.limit` — the least size that has no printed form.
* `Size.hundredths` — the printed form of a number of hundredths of a megabyte.

## Main statements

* `Size.exists_megabytes_iff` — which sizes have a printed form.
* `Size.exists_megabytes` — the printed form after its three roundings.
* `Size.megabytes_rounds_once` — small sizes are rounded once, and all of them in order.
-/

namespace ContainerDocs

namespace Size

open Rounding

def limit : Nat := (2 ^ 54 - 1) * 2 ^ 980

theorem limit_pos : 0 < limit := by decide +kernel

theorem exists_ratio_iff {n : Int} : (∃ x, ratio n = some x) ↔
    ¬∃ s, Binary64.ofRatio (n < 0) n.natAbs 1024 = .infinity s := by
  rw [ratio]
  split
  next s h => simp [h]
  next h =>
    refine iff_of_true ⟨_, rfl⟩ ?_
    rintro ⟨s, hs⟩
    exact h s hs

theorem eq_outOfRange_of_megabytes {n : Int} {e : SizeError} (h : megabytes n = .error e) :
    e = .outOfRange := by
  rw [megabytes] at h
  cases hratio : ratio n with
  | none =>
    rw [hratio] at h
    cases h
    rfl
  | some x =>
    rw [hratio] at h
    cases h

/-- The first quotient leaves the range from the limit on. -/
theorem exists_infinity_iff {n : Int} :
    (∃ s, Binary64.ofRatio (n < 0) n.natAbs 1024 = .infinity s) ↔ limit ≤ n.natAbs := by
  obtain hzero | hpos := Nat.eq_zero_or_pos n.natAbs
  · rw [hzero]
    exact iff_of_false (by rintro ⟨s, ⟨⟩⟩) (not_le.2 limit_pos)
  · have hscale : ∀ a : ℚ, ((2 ^ 54 - 1 : Nat) : ℚ) * (a * 2 ^ 9) =
        (2 ^ 53 - 1 / 2) * a * 1024 := by
      intro a
      norm_num
      ring
    have hlimit : ((limit : Nat) : ℚ) = Binary64.limit * 1024 := by
      have hpower : (2 : ℚ) ^ 980 = 2 ^ 971 * 2 ^ 9 := by rw [← pow_add]
      rw [limit, Binary64.limit, Nat.cast_mul, Nat.cast_pow, Nat.cast_ofNat, hpower]
      exact hscale _
    rw [Binary64.ofRatio_eq_infinity_iff hpos (by decide), quotient, le_div_iff₀ (by norm_num),
      Nat.cast_ofNat, ← hlimit, Nat.cast_le]

/-- A size has a printed form if it stays below the limit. -/
theorem exists_megabytes_iff {n : Int} : (∃ t, megabytes n = .ok t) ↔ n.natAbs < limit := by
  have hratio : (∃ t, megabytes n = .ok t) ↔ ∃ x, ratio n = some x := by
    rw [megabytes]
    cases ratio n <;> simp
  rw [hratio, exists_ratio_iff, exists_infinity_iff, not_le]

/-! ## The printed number -/

/-- The printed form of `n` hundredths of a megabyte. -/
def hundredths (n : Nat) : String :=
  toString (n / 100) ++ "." ++ toString (n / 10 % 10) ++ toString (n % 10) ++ " MB"

/-- Two places are the two digits of a number below a hundred. -/
theorem padded_two {k : Nat} (hk : k < 100) :
    Format.padded 2 k = Format.digits (k / 10) ++ Format.digits (k % 10) := by
  have hall : ∀ k < 100,
      Format.padded 2 k = Format.digits (k / 10) ++ Format.digits (k % 10) := by decide
  exact hall k hk

theorem fixedRatio_two (num den : Nat) : String.ofList (Format.fixedRatio 2 num den) ++ " MB" =
    hundredths (nearest (num * 100) den) := by
  obtain ⟨n, hn⟩ : ∃ n, n = nearest (num * 100) den := ⟨_, rfl⟩
  have hfixed : Format.fixedRatio 2 num den =
      Format.digits (n / 100) ++ '.' :: Format.padded 2 (n % 100) := by rw [hn]; rfl
  have htens : n % 100 / 10 = n / 10 % 10 := by omega
  have hones : n % 100 % 10 = n % 10 := by omega
  rw [hfixed, ← hn, padded_two (Nat.mod_lt n (by decide)), htens, hones, ← String.toList_inj]
  simp [hundredths, Format.digits, Nat.toList_repr]

/-- A number that is not negative is printed with the two places nearest to its value. -/
theorem exists_hundredths {x : Binary64} {v : ℚ} (h : x.HasValue v) (hx : x.isNegative = false) :
    ∃ n, IsNearest (v * 100) n ∧ Format.fixed 2 x ++ " MB" = hundredths n := by
  obtain ⟨⟨num, den⟩, hratio, hden, rfl⟩ := h
  have hvalue : quotient (num, den) * 100 = quotient (num * 100, den) := by
    rw [quotient, quotient, Nat.cast_mul, Nat.cast_ofNat, div_mul_eq_mul_div]
  have hchars : Format.fixedChars 2 x = Format.fixedRatio 2 num den := by
    cases x with
    | finite negative m e hcanonical =>
      obtain rfl : negative = false := hx
      simp only [Format.fixedChars, hratio, Format.sign, Binary64.isNegative]
      rfl
    | infinity s => cases hratio
    | nan => cases hratio
  refine ⟨nearest (num * 100) den, ?_, ?_⟩
  · rw [hvalue]
    exact isNearest_nearest (p := (num * 100, den)) hden
  · rw [Format.fixed, hchars, fixedRatio_two]

/-! ## The divisions -/

variable {m n : Int}

theorem ratio_eq {x : Binary64} {v : ℚ} (h : x.HasValue v)
    (hx : Binary64.ofRatio (n < 0) n.natAbs 1024 = x) : ratio n = some (x.divNat 1024) := by
  rw [ratio, hx]
  cases x with
  | infinity s =>
    obtain ⟨p, hratio, -⟩ := h
    cases hratio
  | _ => rfl

/-- The printed form of a size after its three roundings: one for each division and one for the
places. -/
theorem exists_megabytes (hn : 0 ≤ n) (hlimit : n.natAbs < limit) :
    ∃ (v w : ℚ) (a : Nat), Binary64.RoundsTo (n / 1024) v ∧ Binary64.RoundsTo (v / 1024) w ∧
      IsNearest (w * 100) a ∧ megabytes n = .ok (hundredths a) := by
  have hfinite : ∀ s, Binary64.ofRatio (n < 0) n.natAbs 1024 ≠ .infinity s := fun s hs =>
    not_le.2 hlimit (exists_infinity_iff.1 ⟨s, hs⟩)
  obtain ⟨v, hv, hfirst⟩ := Binary64.exists_hasValue_ofRatio (by decide) hfinite
  obtain ⟨w, hw, hsecond⟩ := Binary64.exists_hasValue_divNat hv (n := 1024) (by decide)
  have hratio := ratio_eq hv rfl
  have hpositive : (Binary64.divNat (Binary64.ofRatio (n < 0) n.natAbs 1024) 1024).isNegative =
      false := by
    rw [Binary64.isNegative_divNat hv, Binary64.isNegative_ofRatio]
    exact decide_eq_false (not_lt.2 hn)
  obtain ⟨a, ha, htext⟩ := exists_hundredths hw hpositive
  have hquotient : quotient (n.natAbs, 1024) = n / 1024 := by
    rw [quotient, Nat.cast_natAbs, abs_of_nonneg hn, Nat.cast_ofNat]
  rw [hquotient] at hfirst
  rw [Nat.cast_ofNat] at hsecond
  refine ⟨v, w, a, hfirst, hsecond, ha, ?_⟩
  rw [megabytes, hratio, ← htext]

theorem two_pow_lt_limit : 2 ^ 53 < limit := by decide +kernel

/-- A size up to `2 ^ 53` has at most 53 binary digits in front of its zeros. -/
theorem exists_mantissa (hn : 0 ≤ n) (hsmall : n ≤ 2 ^ 53) :
    ∃ (k : Nat) (i : Int), k < 2 ^ 53 ∧ 0 ≤ i ∧ (n : ℚ) = k * 2 ^ i := by
  obtain ⟨k, rfl⟩ := Int.eq_ofNat_of_zero_le hn
  obtain hlt | heq : k < 2 ^ 53 ∨ k = 2 ^ 53 := by omega
  · exact ⟨k, 0, hlt, le_rfl, by simp⟩
  · refine ⟨1, 53, by norm_num, by norm_num, ?_⟩
    rw [heq, zpow_ofNat, Nat.cast_one, one_mul, Int.cast_natCast, Nat.cast_pow, Nat.cast_ofNat]

/-- Dividing such a size by a power of two that is not too large loses nothing. -/
theorem eq_of_roundsTo {q v : ℚ} {j : Int} (hn : 0 ≤ n) (hsmall : n ≤ 2 ^ 53) (hj : j ≤ 1074)
    (hq : q = n * 2 ^ (-j)) (h : Binary64.RoundsTo q v) : v = q := by
  obtain ⟨k, i, hk, hi, hvalue⟩ := exists_mantissa hn hsmall
  refine h.exact (e := i - j) ?_ hk (by omega)
  rw [hq, hvalue, mul_assoc, ← zpow_add₀ two_ne_zero, sub_eq_add_neg]

/-- A size up to `2 ^ 53` is printed with the two places nearest to it in megabytes, the even ones
of two equally near. Whatever size can be printed, smaller ones are printed with smaller numbers or
the same. -/
theorem megabytes_rounds_once (hn : 0 ≤ n) :
    (n ≤ 2 ^ 53 → ∃ a : Nat, IsNearest ((n : ℚ) / 1048576 * 100) a ∧
      megabytes n = .ok (hundredths a)) ∧
    ∀ (m : Int) (t : String), 0 ≤ m → m ≤ n → megabytes n = .ok t →
      ∃ a b : Nat, megabytes m = .ok (hundredths a) ∧ t = hundredths b ∧ a ≤ b := by
  constructor
  · intro hsmall
    have hlimit : n.natAbs < limit := lt_of_le_of_lt (by omega) two_pow_lt_limit
    obtain ⟨v, w, a, hv, hw, ha, hmegabytes⟩ := exists_megabytes hn hlimit
    have hkilo : (n : ℚ) / 1024 = n * 2 ^ (-10 : Int) := by
      rw [div_eq_mul_inv, zpow_neg]
      norm_num
    have hfirst : v = n / 1024 := eq_of_roundsTo hn hsmall (by norm_num) hkilo hv
    have hmega : v / 1024 = n * 2 ^ (-20 : Int) := by
      rw [hfirst, div_div, div_eq_mul_inv, zpow_neg]
      norm_num
    have hsecond : w = v / 1024 := eq_of_roundsTo hn hsmall (by norm_num) hmega hw
    have hvalue : w = n / 1048576 := by
      rw [hsecond, hfirst, div_div]
      norm_num
    exact ⟨a, hvalue ▸ ha, hmegabytes⟩
  · intro m t hm hmn ht
    have hlimit := exists_megabytes_iff.1 ⟨t, ht⟩
    obtain ⟨v, w, a, hv, hw, ha, hmegabytes⟩ := exists_megabytes hm (by omega)
    obtain ⟨v', w', b, hv', hw', hb, hmegabytes'⟩ := exists_megabytes hn hlimit
    rw [ht] at hmegabytes'
    have hfirst : v ≤ v' := hv.le hv' (by positivity) (by gcongr)
    have hsecond : w ≤ w' := hw.le hw' (div_nonneg hv.nonneg (by norm_num)) (by gcongr)
    exact ⟨a, b, hmegabytes, Except.ok.inj hmegabytes', ha.le hb (by gcongr)⟩

/-- An eighth of a megabyte goes down to an even place, three eighths go up to one, and a size that
is no number of the format is not printed above a greater one. -/
theorem megabytes_rounds_once_of_eighths :
    (0 ≤ (131072 : Int) ∧ (131072 : Int) ≤ 2 ^ 53 ∧ megabytes 131072 = .ok "0.12 MB") ∧
      (0 ≤ (393216 : Int) ∧ (393216 : Int) ≤ 2 ^ 53 ∧ megabytes 393216 = .ok "0.38 MB") ∧
      0 ≤ (9007199254740993 : Int) ∧ (9007199254740993 : Int) ≤ 9007199254746624 ∧
        ∃ a b : Nat, megabytes 9007199254740993 = .ok (hundredths a) ∧
          megabytes 9007199254746624 = .ok (hundredths b) ∧ a ≤ b := by
  refine ⟨⟨by decide, by decide, ?_⟩, ⟨by decide, by decide, ?_⟩, by decide, by decide, ?_⟩
  · obtain ⟨a, ha, htext⟩ :=
      (megabytes_rounds_once (n := 131072) (by decide)).1 (by decide)
    have htwelve : IsNearest (((131072 : Int) : ℚ) / 1048576 * 100) 12 :=
      ⟨by norm_num [abs_le], fun _ => by decide⟩
    rw [htext, ha.unique htwelve]
    rfl
  · obtain ⟨a, ha, htext⟩ :=
      (megabytes_rounds_once (n := 393216) (by decide)).1 (by decide)
    have heighth : IsNearest (((393216 : Int) : ℚ) / 1048576 * 100) 38 :=
      ⟨by norm_num [abs_le], fun _ => by decide⟩
    rw [htext, ha.unique heighth]
    rfl
  · obtain ⟨t, ht⟩ : ∃ t, megabytes 9007199254746624 = .ok t :=
      exists_megabytes_iff.2 (by decide +kernel)
    obtain ⟨a, b, hm, rfl, hab⟩ := (megabytes_rounds_once (by decide)).2 9007199254740993 t
      (by decide) (by decide) ht
    exact ⟨a, b, hm, ht, hab⟩

end Size
end ContainerDocs
