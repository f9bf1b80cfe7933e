import ContainerDocs.Dockerfile.Reader
import ContainerDocs.Text.LetterCase
import Mathlib.Data.List.Basic

/-!
# Lower case and ASCII words

Among the letters outside ASCII only the Kelvin sign has a lower case in ASCII, the letter `k`. So a
text whose lower case is an ASCII word without that letter is the word in letters of any case.

## Main statements

* `LetterCase.shift_lowerRuns` — where letters outside ASCII go.
* `LetterCase.lowerString_eq_iff` — which strings have a word as their lower case.
-/

namespace ContainerDocs
namespace LetterCase

/-! ## Codes -/

def lowerAscii (n : Nat) : Nat := if 65 ≤ n ∧ n ≤ 90 then n + 32 else n

theorem lowerRuns_targets :
    lowerRuns.toList.all (fun r => r.2.1 < 128 || 128 ≤ r.2.2.2 ||
      (r.1 == r.2.1 && r.2.2.2 == 107)) = true := by decide

/-- A letter outside ASCII goes to one outside ASCII, or to the letter `k`. -/
theorem shift_lowerRuns {n : Nat} (h : 128 ≤ n) :
    128 ≤ shift lowerRuns n ∨ shift lowerRuns n = 107 := by
  rw [shift]
  split
  next lo hi stride target hf =>
    have hm : (lo, hi, stride, target) ∈ lowerRuns.toList :=
      Array.mem_toList_iff.2 (Array.mem_of_find?_eq_some hf)
    have hin := Array.find?_some hf
    have ht := List.all_eq_true.1 lowerRuns_targets _ hm
    simp only [Bool.and_eq_true, Bool.or_eq_true, decide_eq_true_eq, beq_iff_eq] at hin ht
    omega
  next => exact .inl h

/-- Codes whose lower case is an ASCII word without the letter `k` are ASCII letters of any case. -/
theorem lowerCodes_eq_iff {word : List Nat} (h : ∀ n ∈ word, n < 128 ∧ n ≠ 107)
    (before ns : List Nat) : lowerCodes before ns = word ↔ ns.map lowerAscii = word := by
  induction ns generalizing before word with
  | nil => rfl
  | cons n rest ih =>
    rw [lowerCodes, List.map_cons]
    by_cases hn : n < 128
    · have hs : (n == 0x3A3) = false := by
        rw [beq_eq_false_iff_ne]
        omega
      have hc : lowerCode n = [lowerAscii n] := by simp [lowerCode, lowerAscii, hn]
      rw [hs, if_neg (by decide), hc, List.singleton_append]
      cases word with
      | nil => simp
      | cons m word =>
        rw [List.cons.injEq, List.cons.injEq, ih fun k hk => h k (by simp [hk])]
    · -- Neither side can be the word: its letters are ASCII.
      have hr : lowerAscii n :: rest.map lowerAscii ≠ word := by
        rintro rfl
        have := (h (lowerAscii n) (by simp)).1
        rw [lowerAscii, if_neg (by omega)] at this
        omega
      have hl : ∀ codes, (if n == 0x3A3 then
          [if meetsCased before && !meetsCased rest then 0x3C2 else 0x3C3]
          else lowerCode n) ++ codes ≠ word := by
        rintro codes rfl
        split_ifs at h
        · exact absurd (h 0x3C2 (by simp)).1 (by decide)
        · exact absurd (h 0x3C3 (by simp)).1 (by decide)
        · rw [lowerCode, if_neg hn] at h
          split_ifs at h
          · exact absurd (h 0x307 (by simp)).1 (by decide)
          · have hk := h (shift lowerRuns n) (by simp)
            have ht := shift_lowerRuns (n := n) (by omega)
            omega
      exact iff_of_false (hl _) hr

/-! ## Strings -/

theorem toNat_ofNatAux {n : Nat} (h : n.isValidChar) : (Char.ofNatAux n h).toNat = n := rfl

theorem toNat_lowerLetter (c : Char) : (Reader.lowerLetter c).toNat = lowerAscii c.toNat := by
  have hc : ('A' ≤ c ∧ c ≤ 'Z') ↔ (65 ≤ c.toNat ∧ c.toNat ≤ 90) := Iff.rfl
  simp only [Reader.lowerLetter, lowerAscii, hc]
  split
  next h =>
    have hv : (c.toNat + 32).isValidChar := .inl (by omega)
    rw [Char.ofNat, dif_pos hv, toNat_ofNatAux]
  next => rfl

/-- The character of a number is an ASCII character exactly if the number is its code. -/
theorem toCharLossy_ofNat_eq_iff {n : Nat} {c : Char} (hc : c.toNat < 128) :
    (CodePoint.ofNat n).toCharLossy = c ↔ n = c.toNat := by
  rw [← Char.toNat_inj]
  by_cases hv : n.isValidChar
  · have hn : n < 0x110000 := by
      simp only [Nat.isValidChar] at hv
      omega
    have hchar : CodePoint.toChar? ⟨n, hn⟩ = some (Char.ofNatAux n hv) := dif_pos hv
    have ht : (CodePoint.ofNat n).toCharLossy.toNat = n := by
      rw [CodePoint.ofNat, dif_pos hn, CodePoint.toCharLossy, hchar]
      exact toNat_ofNatAux hv
    rw [ht]
  · have ht : (CodePoint.ofNat n).toCharLossy.toNat = 0xFFFD := by
      rw [CodePoint.ofNat]
      split
      next hn =>
        have hchar : CodePoint.toChar? ⟨n, hn⟩ = none := dif_neg hv
        rw [CodePoint.toCharLossy, hchar]
        rfl
      next => rfl
    have hn : ¬ n < 128 := fun h => hv (.inl (by omega))
    omega

theorem map_toCharLossy_eq_iff {ns : List Nat} {cs : List Char} (h : ∀ c ∈ cs, c.toNat < 128) :
    ns.map (fun n => (CodePoint.ofNat n).toCharLossy) = cs ↔ ns = cs.map Char.toNat := by
  induction ns generalizing cs with
  | nil => cases cs <;> simp
  | cons n ns ih =>
    cases cs with
    | nil => simp
    | cons c cs =>
      rw [List.map_cons, List.map_cons, List.cons.injEq, List.cons.injEq,
        toCharLossy_ofNat_eq_iff (h c (by simp)), ih fun d hd => h d (by simp [hd])]

/-- A string has an ASCII word without the letter `k` as its lower case exactly if it is the word in
letters of any case. -/
theorem lowerString_eq_iff {s word : String} (h : ∀ c ∈ word.toList, c.toNat < 128 ∧ c ≠ 'k') :
    lowerString s = word ↔ s.toList.map Reader.lowerLetter = word.toList := by
  have hs : lowerString s = String.ofList ((lowerCodes [] (s.toList.map Char.toNat)).map
      fun n => (CodePoint.ofNat n).toCharLossy) := by
    rw [lowerString, lower, Text.toStringLossy, List.map_map, Text.ofString, Text.ofChars,
      List.map_map]
    rfl
  have hw : ∀ n ∈ word.toList.map Char.toNat, n < 128 ∧ n ≠ 107 := by
    intro n hn
    obtain ⟨c, hc, rfl⟩ := List.mem_map.1 hn
    exact ⟨(h c hc).1, fun hk => (h c hc).2 (Char.toNat_inj.1 hk)⟩
  have hl : (s.toList.map Char.toNat).map lowerAscii =
      (s.toList.map Reader.lowerLetter).map Char.toNat := by
    simp [toNat_lowerLetter]
  rw [hs, ← String.toList_inj, String.toList_ofList,
    map_toCharLossy_eq_iff fun c hc => (h c hc).1, lowerCodes_eq_iff hw, hl]
  exact (List.map_injective_iff.2 fun _ _ => Char.toNat_inj.1).eq_iff

end LetterCase
end ContainerDocs
